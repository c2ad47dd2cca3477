import Repiu.Exe.RuntimeMemory

/-!
# The relocation dry run against the build

The plan and the build walk the same fixup records.  Each walk is characterised by itself: which
records it stops at and how many it applies; then they are compared.
-/

namespace Repiu.Exe

open Repiu.Engine

/-! ## The regions of a plan -/

/-- Indices of the tail of a list count from one on. -/
theorem shift_mapIdx {α β : Type} (f : ℕ → α → β) (index : ℕ) :
    (fun i a => f (index + (i + 1)) a) = fun i a => f (index + 1 + i) a := by
  funext i a
  rw [Nat.add_right_comm, Nat.add_assoc]

theorem planRegions_ok_iff {delta : Word} {index : ℕ} {objects : List LeMappedObject}
    {regions : List RelocatableRuntimeObjectRegion} :
    planRegions delta index objects = .ok regions ↔
      (∀ object ∈ objects, object.relocatedEnd delta ≤ 0xFFFFFFFF) ∧
        regions = objects.mapIdx fun i object => relocatableObjectRegion delta (index + i) object := by
  induction objects generalizing index regions with
  | nil =>
    rw [planRegions, Except.ok.injEq, List.mapIdx_nil]
    exact ⟨fun h => ⟨by simp, h.symm⟩, fun h => h.2.symm⟩
  | cons object objects ih =>
    rw [planRegions, List.mapIdx_cons, shift_mapIdx (relocatableObjectRegion delta), List.forall_mem_cons]
    by_cases hend : 0xFFFFFFFF < object.relocatedEnd delta
    · rw [if_pos hend]
      constructor
      · intro h
        cases h
      · rintro ⟨⟨hle, -⟩, -⟩
        exact absurd hend (not_lt.mpr hle)
    · rw [if_neg hend]
      cases hrest : planRegions delta (index + 1) objects with
      | error e =>
        constructor
        · intro h
          cases h
        · rintro ⟨⟨-, hall⟩, -⟩
          have hok := (@ih (index + 1) _).mpr ⟨hall, rfl⟩
          rw [hrest] at hok
          cases hok
      | ok rest =>
        obtain ⟨hall, rfl⟩ := ih.mp hrest
        show Except.ok _ = Except.ok _ ↔ _
        rw [Except.ok.injEq]
        exact ⟨fun h => ⟨⟨not_lt.mp hend, hall⟩, h.symm⟩, fun h => h.2.symm⟩

/-- What a plan that is reported consists of. -/
theorem buildRelocatableRuntimeImagePlan_ok {load : Dos4gwLoadResult} {base : Word}
    {plan : RelocatableRuntimeImagePlan} (h : buildRelocatableRuntimeImagePlan load base = .ok plan) :
    load.image.valid = true ∧ load.fixupRecordInfo.valid = true ∧
    (∀ object ∈ load.image.mappedObjects, object.relocatedEnd plan.relocationDelta ≤ 0xFFFFFFFF) ∧
    plan.objectRegions = (load.image.mappedObjects.mapIdx (relocatableObjectRegion plan.relocationDelta)) ∧
    plan.relocatedHleReserveBase = alignUp (BitVec.ofNat 32
      (load.image.mappedObjects.foldl (fun last object => max last (object.relocatedEnd plan.relocationDelta)) 0))
      kRuntimePageSize ∧
    ∃ run, dryRunRecords load plan.objectRegions load.fixupRecordInfo.records {} = .ok run ∧
      plan.relocationDryRun = { run with valid := true } := by
  unfold buildRelocatableRuntimeImagePlan at h
  split_ifs at h with hvalid
  cases hobjects : load.image.mappedObjects with
  | nil =>
    rw [hobjects] at h
    cases h
  | cons front rest =>
    rw [hobjects] at h
    dsimp only at h
    split_ifs at h with hbase
    rw [← hobjects] at h ⊢
    generalize hdelta : base - load.image.mappedObjects.foldl _ _ = delta at h
    cases hregions : planRegions delta 0 load.image.mappedObjects with
    | error e =>
      rw [hregions] at h
      cases h
    | ok regions =>
      rw [hregions] at h
      dsimp only at h
      cases hrun : dryRunRecords load regions load.fixupRecordInfo.records {} with
      | error e =>
        rw [hrun] at h
        cases h
      | ok run =>
        rw [hrun] at h
        cases h
        obtain ⟨hends, heq⟩ := planRegions_ok_iff.mp hregions
        simp only [Nat.zero_add] at heq
        simp only [not_or, not_not] at hvalid
        exact ⟨hvalid.1, hvalid.2, hends, heq, rfl, run, hrun, rfl⟩

/-! ## Records -/

section
variable (load : Dos4gwLoadResult)

/-- The object that the source of a record lies in, with its index and the offset in it. -/
def recordSource (record : LeFixupRecord) : Option (LeMappedObject × Word × Word) :=
  findSourceObjectForPage record load.leHeader.pageSize 0 load.image.mappedObjects

/-- The four bytes at the source of a record lie in its object. -/
def sourceInRange (record : LeFixupRecord) : Bool :=
  match recordSource load record with
  | none => false
  | some (source, _, offset) => ¬outOfRange source.memory offset

/-- The record names an object of the image, and a page that one has. -/
structure Located (record : LeFixupRecord) : Prop where
  target : 0 < record.targetObject.toNat ∧ record.targetObject.toNat ≤ load.image.mappedObjects.length
  source : (recordSource load record).isSome

end

theorem findSourceObjectForPage_some {record : LeFixupRecord} {pageSize : Word} {index : ℕ}
    {objects : List LeMappedObject} {source : LeMappedObject} {sourceIndex sourceOffset : Word}
    (h : findSourceObjectForPage record pageSize index objects = some (source, sourceIndex, sourceOffset)) :
    ∃ i, objects[i]? = some source ∧ sourceIndex = BitVec.ofNat 32 (index + i + 1) := by
  induction objects generalizing index with
  | nil => cases h
  | cons candidate rest ih =>
    rw [findSourceObjectForPage] at h
    dsimp only at h
    split_ifs at h with hpage hoffset
    · cases h
      exact ⟨0, rfl, rfl⟩
    · obtain ⟨i, hi, heq⟩ := ih h
      refine ⟨i + 1, hi, ?_⟩
      rw [heq, Nat.add_right_comm index 1 i]
      rfl

/-- Regions with the indices of the objects: an object is found by the index it has. -/
theorem findRelocatedObject_isSome_iff {load : Dos4gwLoadResult} {delta : Word}
    (hcount : load.image.mappedObjects.length < 2 ^ 32) (index : Word) :
    (findRelocatedObject (load.image.mappedObjects.mapIdx (relocatableObjectRegion delta)) index).isSome ↔
      0 < index.toNat ∧ index.toNat ≤ load.image.mappedObjects.length := by
  unfold findRelocatedObject
  rw [List.find?_isSome]
  constructor
  · rintro ⟨region, hregion, hindex⟩
    obtain ⟨i, hi, rfl⟩ := List.mem_mapIdx.mp hregion
    rw [← of_decide_eq_true hindex]
    show 0 < (BitVec.ofNat 32 (i + 1)).toNat ∧ (BitVec.ofNat 32 (i + 1)).toNat ≤ _
    rw [BitVec.toNat_ofNat, Nat.mod_eq_of_lt (by omega)]
    omega
  · rintro ⟨hpos, hle⟩
    refine ⟨_, List.mem_mapIdx.mpr ⟨index.toNat - 1, by omega, rfl⟩, ?_⟩
    apply decide_eq_true
    show BitVec.ofNat 32 (index.toNat - 1 + 1) = index
    rw [Nat.sub_add_cancel hpos, BitVec.ofNat_toNat, BitVec.setWidth_eq]

/-! ## The walk of the plan -/

theorem appliedCount_noteApplied (run : RelocatableRuntimeRelocationDryRun) (a b c d : Word) (record : LeFixupRecord) :
    (run.noteApplied a b c d record).appliedCount = run.appliedCount + 1 := by
  unfold RelocatableRuntimeRelocationDryRun.noteApplied
  split_ifs <;> rfl

section
variable {load : Dos4gwLoadResult} {regions : List RelocatableRuntimeObjectRegion} {record : LeFixupRecord}
  {records : List LeFixupRecord} {run : RelocatableRuntimeRelocationDryRun}

/-- What one step of the plan does with a 32-bit offset record. -/
theorem dryRunRecords_cons (hkind : sourceKind record = 0x07) :
    (¬((findRelocatedObject regions record.targetObject).isSome ∧ (recordSource load record).isSome) ∧
      ∃ e, dryRunRecords load regions (record :: records) run = .error e) ∨
    ((findRelocatedObject regions record.targetObject).isSome ∧ (recordSource load record).isSome ∧
      ∃ run', dryRunRecords load regions (record :: records) run = dryRunRecords load regions records run' ∧
        run'.appliedCount = run.appliedCount + if sourceInRange load record then 1 else 0) := by
  rw [dryRunRecords, if_neg (not_not.mpr hkind)]
  cases findRelocatedObject regions record.targetObject with
  | none => exact .inl ⟨by simp, _, rfl⟩
  | some target =>
    dsimp only
    unfold sourceInRange recordSource
    cases findSourceObjectForPage record load.leHeader.pageSize 0 load.image.mappedObjects with
    | none => exact .inl ⟨by simp, _, rfl⟩
    | some found =>
      obtain ⟨source, sourceIndex, sourceOffset⟩ := found
      refine .inr ⟨rfl, rfl, ?_⟩
      dsimp only
      by_cases hout : outOfRange source.memory sourceOffset
      · refine ⟨_, if_pos hout, ?_⟩
        rw [if_neg (by simpa using hout)]
        rfl
      · refine ⟨_, if_neg hout, ?_⟩
        rw [appliedCount_noteApplied, if_pos (decide_eq_true hout)]

/-- The plan stops at no record exactly when every 32-bit offset record is located, and counts those
whose sources are in range. -/
theorem dryRunRecords_spec :
    ((∃ run', dryRunRecords load regions records run = .ok run') ↔
      ∀ record ∈ records, sourceKind record = 0x07 →
        (findRelocatedObject regions record.targetObject).isSome ∧ (recordSource load record).isSome) ∧
    ∀ run', dryRunRecords load regions records run = .ok run' → run'.appliedCount = run.appliedCount +
      records.countP fun record => sourceKind record = 0x07 ∧ sourceInRange load record = true := by
  induction records generalizing run with
  | nil =>
    refine ⟨by simp [dryRunRecords], ?_⟩
    intro run' h
    cases h
    rfl
  | cons record records ih =>
    rw [List.forall_mem_cons]
    by_cases hkind : sourceKind record = 0x07
    · rcases @dryRunRecords_cons load regions record records run hkind with
        ⟨hnot, e, herror⟩ | ⟨htarget, hsource, run', heq, happlied⟩
      · rw [herror]
        exact ⟨⟨nofun, fun h => absurd (h.1 hkind) hnot⟩, nofun⟩
      · obtain ⟨hok, hresult⟩ := @ih run'
        rw [heq, hok]
        refine ⟨⟨fun h => ⟨fun _ => ⟨htarget, hsource⟩, h⟩, fun h => h.2⟩, ?_⟩
        intro result h
        rw [hresult result h, happlied, List.countP_cons]
        simp only [hkind, true_and, decide_eq_true_eq]
        ring
    · obtain ⟨hok, hresult⟩ := @ih run.skipUnsupported
      rw [dryRunRecords, if_pos hkind, hok]
      refine ⟨⟨fun h => ⟨fun hk => absurd hk hkind, h⟩, fun h => h.2⟩, ?_⟩
      intro result h
      rw [hresult result h, List.countP_cons]
      simp only [hkind, false_and, decide_false, Bool.false_eq_true, if_false]
      rfl

end

/-! ## The walk of the build -/

theorem length_writeMemory (memory : List Byte) (offset : Word) (bytes : List Byte) :
    (writeMemory memory offset bytes).length = memory.length := by
  induction bytes generalizing memory offset with
  | nil => rfl
  | cons b bs ih => rw [writeMemory, ih, List.length_set]

/-- The image has the objects of the load result, by index and size, and a binding for each region. -/
structure Matches (objects : List LeMappedObject) (regions : List RelocatableRuntimeObjectRegion)
    (image : RelocatedRuntimeImage) : Prop where
  objects : (image.objects.map fun object => (object.objectIndex, object.memory.length)) =
    objects.mapIdx fun i object => (BitVec.ofNat 32 (i + 1), object.memory.length)
  bindings : image.selectorBindings.map (·.targetObject) = regions.map (·.objectIndex)

theorem sizes_writeObject (objectIndex offset : Word) (bytes : List Byte) (objects : List RelocatedRuntimeObject) :
    ((writeObject objectIndex offset bytes objects).map fun object => (object.objectIndex, object.memory.length)) =
      objects.map fun object => (object.objectIndex, object.memory.length) := by
  induction objects with
  | nil => rfl
  | cons object objects ih =>
    rw [writeObject]
    by_cases hindex : object.objectIndex = objectIndex
    · rw [if_pos hindex, List.map_cons, List.map_cons, length_writeMemory]
    · rw [if_neg hindex, List.map_cons, List.map_cons, ih]

section
variable {objects : List LeMappedObject} {regions : List RelocatableRuntimeObjectRegion}
  {image : RelocatedRuntimeImage}

/-- Writes into objects keep their indices and sizes. -/
theorem Matches.congr (h : Matches objects regions image) {image' : RelocatedRuntimeImage}
    (hobjects : (image'.objects.map fun object => (object.objectIndex, object.memory.length)) =
      image.objects.map fun object => (object.objectIndex, object.memory.length))
    (hbindings : image'.selectorBindings = image.selectorBindings) : Matches objects regions image' :=
  ⟨hobjects.trans h.objects, hbindings ▸ h.bindings⟩

/-- The object of a source is found in the image, with the size it has. -/
theorem Matches.find (h : Matches objects regions image) (hcount : objects.length < 2 ^ 32) {i : ℕ}
    {source : LeMappedObject} (hi : objects[i]? = some source) :
    ∃ object, findRelocatedImageObject image.objects (BitVec.ofNat 32 (i + 1)) = some object ∧
      object.memory.length = source.memory.length := by
  have hlt : i < objects.length := (List.getElem?_eq_some_iff.mp hi).1
  have hat : ∀ j : ℕ, (image.objects[j]?).map (fun object => (object.objectIndex, object.memory.length)) =
      (objects[j]?).map fun object => (BitVec.ofNat 32 (j + 1), object.memory.length) := by
    intro j
    rw [← List.getElem?_map, h.objects, List.getElem?_mapIdx]
  have hsome : (findRelocatedImageObject image.objects (BitVec.ofNat 32 (i + 1))).isSome := by
    unfold findRelocatedImageObject
    rw [List.find?_isSome]
    have hhere := hat i
    rw [hi, Option.map_some, Option.map_eq_some_iff] at hhere
    obtain ⟨object, hobject, hpair⟩ := hhere
    refine ⟨object, List.mem_of_getElem? hobject, decide_eq_true ?_⟩
    exact (Prod.mk.inj hpair).1
  obtain ⟨object, hobject⟩ := Option.isSome_iff_exists.mp hsome
  refine ⟨object, hobject, ?_⟩
  have hfind := hobject
  unfold findRelocatedImageObject at hfind
  have hindex : object.objectIndex = BitVec.ofNat 32 (i + 1) := by
    simpa using List.find?_some hfind
  obtain ⟨j, hj⟩ := List.mem_iff_getElem?.mp (List.mem_of_find?_eq_some hfind)
  have hthere := hat j
  rw [hj, Option.map_some, eq_comm, Option.map_eq_some_iff] at hthere
  obtain ⟨other, hother, hpair⟩ := hthere
  obtain ⟨hfirst, hsize⟩ := Prod.mk.inj hpair
  -- both indices are below 2 ^ 32, so they are one
  have hjlt : j < objects.length := (List.getElem?_eq_some_iff.mp hother).1
  have hsame : j = i := by
    have hnat := congrArg BitVec.toNat (hfirst.trans hindex)
    rw [BitVec.toNat_ofNat, BitVec.toNat_ofNat] at hnat
    omega
  rw [hsame, hi, Option.some.injEq] at hother
  rw [← hsize, hother]

theorem Matches.binding (h : Matches objects regions image) {target : Word}
    (htarget : (findRelocatedObject regions target).isSome) :
    ∃ existing, (image.selectorBindings.find? fun candidate => candidate.targetObject = target) = some existing := by
  rw [← Option.isSome_iff_exists, List.find?_isSome]
  unfold findRelocatedObject at htarget
  rw [List.find?_isSome] at htarget
  obtain ⟨region, hregion, hindex⟩ := htarget
  have hmem : region.objectIndex ∈ image.selectorBindings.map (·.targetObject) := by
    rw [h.bindings]
    exact List.mem_map_of_mem hregion
  obtain ⟨binding, hbinding, heq⟩ := List.mem_map.mp hmem
  exact ⟨binding, hbinding, decide_eq_true (heq.trans (of_decide_eq_true hindex))⟩

end

theorem outOfRange_congr {memory memory' : List Byte} (h : memory.length = memory'.length) (offset : Word) :
    outOfRange memory offset ↔ outOfRange memory' offset := by
  unfold outOfRange
  rw [h]

/-- The kinds the build applies. -/
def Applicable (record : LeFixupRecord) : Prop := sourceKind record = 0x07 ∨ sourceKind record = 0x03

instance (record : LeFixupRecord) : Decidable (Applicable record) := inferInstanceAs (Decidable (_ ∨ _))

/-- What one step of the build does with a record of a kind it applies. -/
theorem applyRecords_cons {load : Dos4gwLoadResult} {plan : RelocatableRuntimeImagePlan} {record : LeFixupRecord}
    {records : List LeFixupRecord} {image : RelocatedRuntimeImage} {run : RelocatableRuntimeRelocationDryRun}
    (hcount : load.image.mappedObjects.length < 2 ^ 32)
    (hmatches : Matches load.image.mappedObjects plan.objectRegions image) (hkind : Applicable record) :
    (¬((findRelocatedObject plan.objectRegions record.targetObject).isSome ∧ (recordSource load record).isSome) ∧
      ∃ e, applyRecords load plan (record :: records) image run = .error e) ∨
    ((findRelocatedObject plan.objectRegions record.targetObject).isSome ∧ (recordSource load record).isSome ∧
      ∃ image' run', applyRecords load plan (record :: records) image run = applyRecords load plan records image' run' ∧
        Matches load.image.mappedObjects plan.objectRegions image' ∧
        run'.appliedCount = run.appliedCount + if sourceInRange load record then 1 else 0) := by
  have hsupported : ¬(sourceKind record ≠ 0x07 ∧ sourceKind record ≠ 0x03) := by
    rintro ⟨hseven, hthree⟩
    exact hkind.elim hseven hthree
  rw [applyRecords, if_neg hsupported]
  cases htarget : findRelocatedObject plan.objectRegions record.targetObject with
  | none => exact Or.inl ⟨by simp, _, rfl⟩
  | some target =>
    dsimp only
    unfold sourceInRange recordSource
    cases hsource : findSourceObjectForPage record load.leHeader.pageSize 0 load.image.mappedObjects with
    | none => exact Or.inl ⟨by simp, _, rfl⟩
    | some found =>
      obtain ⟨source, sourceIndex, sourceOffset⟩ := found
      obtain ⟨i, hi, heq⟩ := findSourceObjectForPage_some hsource
      rw [Nat.zero_add] at heq
      obtain ⟨object, hobject, hsize⟩ := hmatches.find hcount hi
      rw [← heq] at hobject
      have hrange := outOfRange_congr hsize sourceOffset
      right
      refine ⟨rfl, rfl, ?_⟩
      dsimp only
      rw [hobject]
      dsimp only
      by_cases hout : outOfRange object.memory sourceOffset
      · refine ⟨image, run.skipOutOfRange, by rw [if_pos hout], hmatches, ?_⟩
        rw [if_neg (by simpa using hrange.mp hout)]
        rfl
      · have hin : decide (¬outOfRange source.memory sourceOffset) = true :=
          decide_eq_true fun hsourceOut => hout (hrange.mpr hsourceOut)
        rw [if_neg hout, if_pos hin]
        by_cases hthree : sourceKind record = 0x03
        · rw [if_pos hthree]
          obtain ⟨existing, hexisting⟩ := hmatches.binding (Option.isSome_iff_exists.mpr ⟨target, htarget⟩)
          refine ⟨_, _, rfl, ?_, ?_⟩
          · unfold applySelectorRecord
            dsimp only
            rw [hexisting]
            apply hmatches.congr
            · exact (sizes_writeObject _ _ _ _).trans (sizes_writeObject _ _ _ _)
            · rfl
          · unfold applySelectorRecord
            dsimp only
            rw [hexisting]
        · rw [if_neg hthree]
          exact ⟨_, _, rfl, hmatches.congr (sizes_writeObject _ _ _ _) rfl, appliedCount_noteApplied ..⟩

/-- The build goes through exactly when every record of the kinds it applies is located, and counts
those whose sources are in range. -/
theorem applyRecords_spec {load : Dos4gwLoadResult} {plan : RelocatableRuntimeImagePlan}
    {records : List LeFixupRecord} {image : RelocatedRuntimeImage} {run : RelocatableRuntimeRelocationDryRun}
    (hcount : load.image.mappedObjects.length < 2 ^ 32)
    (hmatches : Matches load.image.mappedObjects plan.objectRegions image) :
    ((∃ result, applyRecords load plan records image run = .ok result) ↔
      ∀ record ∈ records, Applicable record →
        (findRelocatedObject plan.objectRegions record.targetObject).isSome ∧ (recordSource load record).isSome) ∧
    ∀ result, applyRecords load plan records image run = .ok result →
      result.2.appliedCount = run.appliedCount +
        records.countP fun record => Applicable record ∧ sourceInRange load record = true := by
  induction records generalizing image run with
  | nil =>
    refine ⟨by simp [applyRecords], ?_⟩
    intro result h
    rw [applyRecords, Except.ok.injEq] at h
    rw [← h]
    rfl
  | cons record records ih =>
    rw [List.forall_mem_cons]
    by_cases hkind : Applicable record
    · rcases @applyRecords_cons load plan record records image run hcount hmatches hkind with
        ⟨hnot, e, herror⟩ | ⟨htarget, hsource, image', run', heq, hmatches', happlied⟩
      · rw [herror]
        exact ⟨⟨nofun, fun h => absurd (h.1 hkind) hnot⟩, nofun⟩
      · obtain ⟨hok, hresult⟩ := @ih image' run' hmatches'
        rw [heq, hok]
        constructor
        · exact ⟨fun h => ⟨fun _ => ⟨htarget, hsource⟩, h⟩, fun h => h.2⟩
        · intro result h
          rw [hresult result h, happlied, List.countP_cons]
          simp only [hkind, true_and, decide_eq_true_eq]
          ring
    · have hskip : applyRecords load plan (record :: records) image run =
          applyRecords load plan records image run.skipUnsupported := by
        rw [applyRecords, if_pos]
        unfold Applicable at hkind
        rwa [not_or] at hkind
      obtain ⟨hok, hresult⟩ := @ih image run.skipUnsupported hmatches
      rw [hskip, hok]
      constructor
      · exact ⟨fun h => ⟨fun hk => absurd hk hkind, h⟩, fun h => h.2⟩
      · intro result h
        rw [hresult result h, List.countP_cons]
        simp only [hkind, false_and, decide_false, Bool.false_eq_true, if_false]
        rfl

/-! ## The selectors of the objects -/

/-- Every object that is bound has a size, and takes a selector. -/
theorem bindObjects_ok {objects : List LeMappedObject} {regions : List RelocatableRuntimeObjectRegion}
    {allocator : SelectorAllocator} {image image' : RelocatedRuntimeImage} (haligned : allocator.Aligned)
    (h : bindObjects objects regions allocator image = .ok image') :
    (∀ region ∈ regions, region.virtualSize ≠ 0) ∧ regions.length ≤ allocator.left := by
  induction regions generalizing allocator image with
  | nil => exact ⟨by simp, Nat.zero_le _⟩
  | cons region regions ih =>
    rw [bindObjects] at h
    split_ifs at h with hindex hzero
    dsimp only at h
    by_cases hleft : allocator.left = 0
    · rw [SelectorAllocator.Aligned.allocateSelector_none hleft] at h
      cases h
    · obtain ⟨next, hnext, hnextAligned, -, hcount⟩ := haligned.allocateSelector_some (Nat.pos_of_ne_zero hleft)
      rw [hnext] at h
      obtain ⟨hsizes, hlength⟩ := ih hnextAligned h
      rw [List.forall_mem_cons, List.length_cons]
      exact ⟨⟨hzero, hsizes⟩, by omega⟩

/-- Objects with sizes are bound while there are selectors, each with the memory it has. -/
theorem bindObjects_isOk {objects : List LeMappedObject} {delta : Word} (hcount : objects.length < 2 ^ 32)
    {rest : List LeMappedObject} {index : ℕ} (hrest : objects.drop index = rest)
    (hsizes : ∀ object ∈ rest, object.record.virtualSize ≠ 0) {allocator : SelectorAllocator}
    (haligned : allocator.Aligned) (hleft : rest.length ≤ allocator.left) {image : RelocatedRuntimeImage} :
    ∃ image', bindObjects objects (rest.mapIdx fun i object => relocatableObjectRegion delta (index + i) object)
        allocator image = .ok image' ∧
      (image'.objects.map fun object => (object.objectIndex, object.memory.length)) =
        (image.objects.map fun object => (object.objectIndex, object.memory.length)) ++
          rest.mapIdx (fun i object => (BitVec.ofNat 32 (index + i + 1), object.memory.length)) ∧
      image'.selectorBindings.map (·.targetObject) =
        image.selectorBindings.map (·.targetObject) ++
          rest.mapIdx fun i _ => BitVec.ofNat 32 (index + i + 1) := by
  induction rest generalizing index allocator image with
  | nil => exact ⟨image, rfl, (List.append_nil _).symm, (List.append_nil _).symm⟩
  | cons object rest ih =>
    have hlt : index < objects.length := by
      by_contra hge
      rw [List.drop_eq_nil_of_le (by omega)] at hrest
      cases hrest
    have hobject : objects[index]? = some object := by
      rw [← Nat.add_zero index, ← List.getElem?_drop, hrest]
      rfl
    have hnextRest : objects.drop (index + 1) = rest := by
      rw [← List.tail_drop, hrest]
      rfl
    have hindex : (BitVec.ofNat 32 (index + 1)).toNat = index + 1 := by
      rw [BitVec.toNat_ofNat, Nat.mod_eq_of_lt (by omega)]
    rw [List.forall_mem_cons] at hsizes
    rw [List.length_cons] at hleft
    obtain ⟨next, hnext, hnextAligned, -, hnextLeft⟩ := haligned.allocateSelector_some (by omega)
    rw [List.mapIdx_cons, List.mapIdx_cons, List.mapIdx_cons, shift_mapIdx (relocatableObjectRegion delta),
      shift_mapIdx fun i (object : LeMappedObject) => (BitVec.ofNat 32 (i + 1), object.memory.length),
      shift_mapIdx fun i (_ : LeMappedObject) => BitVec.ofNat 32 (i + 1), Nat.add_zero]
    have hfound : ¬((relocatableObjectRegion delta index object).objectIndex = 0 ∨
        objects.length < (relocatableObjectRegion delta index object).objectIndex.toNat) := by
      show ¬(BitVec.ofNat 32 (index + 1) = 0 ∨ objects.length < (BitVec.ofNat 32 (index + 1)).toNat)
      rw [hindex, not_or]
      refine ⟨fun hzero => ?_, by omega⟩
      rw [hzero] at hindex
      cases hindex
    have hmemory : (objects[(relocatableObjectRegion delta index object).objectIndex.toNat - 1]?).elim []
        LeMappedObject.memory = object.memory := by
      show (objects[(BitVec.ofNat 32 (index + 1)).toNat - 1]?).elim [] LeMappedObject.memory = object.memory
      rw [hindex, Nat.add_sub_cancel, hobject]
      rfl
    have hsize : (relocatableObjectRegion delta index object).virtualSize ≠ 0 := hsizes.1
    rw [bindObjects, if_neg hfound, hmemory, if_neg hsize, hnext]
    obtain ⟨image', hok, hobjects, hbindings⟩ := ih hnextRest hsizes.2 hnextAligned (by omega)
    refine ⟨image', hok, ?_, ?_⟩
    · rw [hobjects]
      show List.map _ (image.objects ++ [_]) ++ _ = _
      rw [List.map_append, List.append_assoc]
      rfl
    · rw [hbindings]
      show List.map _ (image.selectorBindings ++ [_]) ++ _ = _
      rw [List.map_append, List.append_assoc]
      rfl

/-! ## When the dry run predicts the build -/

/-- Every object has a size and gets a selector, and every 16:16 record is located but does not fit
its object. -/
structure Predictable (load : Dos4gwLoadResult) : Prop where
  sized : ∀ object ∈ load.image.mappedObjects, object.record.virtualSize ≠ 0
  bound : load.image.mappedObjects.length ≤ 8188
  farPointers : ∀ record ∈ load.fixupRecordInfo.records, sourceKind record = 0x03 →
    Located load record ∧ sourceInRange load record = false

/-- The build gives an image with as many fixups applied as the plan counted. -/
def BuildsAsPlanned (load : Dos4gwLoadResult) (plan : RelocatableRuntimeImagePlan) : Prop :=
  ∃ image, buildRelocatedRuntimeImage load plan = .ok image ∧
    image.relocationResult.appliedCount = plan.relocationDryRun.appliedCount

/-- The two kinds are counted apart. -/
theorem countP_applicable (load : Dos4gwLoadResult) (records : List LeFixupRecord) :
    (records.countP fun record => Applicable record ∧ sourceInRange load record = true) =
      (records.countP fun record => sourceKind record = 0x07 ∧ sourceInRange load record = true) +
        records.countP fun record => sourceKind record = 0x03 ∧ sourceInRange load record = true := by
  induction records with
  | nil => rfl
  | cons record records ih =>
    rw [List.countP_cons, List.countP_cons, List.countP_cons, ih]
    unfold Applicable
    by_cases hseven : sourceKind record = 0x07
    · have hthree : ¬(0x07 : Byte) = 0x03 := by decide
      simp only [hseven, hthree, or_false, true_and, false_and, decide_false, Bool.false_eq_true, if_false]
      omega
    · simp only [hseven, false_or, false_and, decide_false, Bool.false_eq_true, if_false]
      omega

/-- The regions of a plan find the objects of the image. -/
theorem located_iff {load : Dos4gwLoadResult} {delta : Word} (hcount : load.image.mappedObjects.length < 2 ^ 32)
    (record : LeFixupRecord) :
    ((findRelocatedObject (load.image.mappedObjects.mapIdx (relocatableObjectRegion delta))
        record.targetObject).isSome ∧ (recordSource load record).isSome) ↔ Located load record := by
  rw [findRelocatedObject_isSome_iff hcount]
  exact ⟨fun h => ⟨h.1, h.2⟩, fun h => ⟨h.target, h.source⟩⟩

/-- The allocator of the build has a selector for each of 8188 objects. -/
theorem objectAllocator : ∃ allocator, initializeSelectorAllocator kPiuDos4gwFirstObjectSelector = some allocator ∧
    allocator.Aligned ∧ allocator.left = 8188 :=
  ⟨⟨true, 0x1C, 0⟩, rfl, @SelectorAllocator.Aligned.of_fresh _ 0x1C rfl, rfl⟩

section
variable {load : Dos4gwLoadResult} {base : Word} {plan : RelocatableRuntimeImagePlan}

/-- The build of a plan, up to its record walk. -/
theorem build_eq (h : buildRelocatableRuntimeImagePlan load base = .ok plan) (hvalid : plan.valid = true)
    (hsized : ∀ object ∈ load.image.mappedObjects, object.record.virtualSize ≠ 0)
    (hbound : load.image.mappedObjects.length ≤ 8188) :
    ∃ image, Matches load.image.mappedObjects plan.objectRegions image ∧
      buildRelocatedRuntimeImage load plan =
        match applyRecords load plan load.fixupRecordInfo.records image {} with
        | .error e => .error e
        | .ok (image, run) => .ok { image with valid := true, relocationResult := { run with valid := true } } := by
  obtain ⟨himage, hfixups, -, hregions, -⟩ := buildRelocatableRuntimeImagePlan_ok h
  obtain ⟨allocator, hfresh, haligned, hleft⟩ := objectAllocator
  have hcount : load.image.mappedObjects.length < 2 ^ 32 := by omega
  obtain ⟨image, hok, hobjects, hbindings⟩ := @bindObjects_isOk load.image.mappedObjects plan.relocationDelta hcount
    load.image.mappedObjects 0 rfl hsized allocator haligned (by omega)
    { relocatedImageBase := plan.relocatedImageBase
      relocatedHleReserveBase := plan.relocatedHleReserveBase
      relocatedEntryLinearAddress := plan.relocatedEntryLinearAddress
      relocatedStackTopLinearAddress := plan.relocatedStackTopLinearAddress }
  simp only [Nat.zero_add] at hok hobjects hbindings
  rw [← hregions] at hok
  have hinput : ¬(¬load.image.valid = true ∨ ¬load.fixupRecordInfo.valid = true ∨ ¬plan.valid = true) := by
    simp [himage, hfixups, hvalid]
  refine ⟨image, ⟨hobjects, ?_⟩, ?_⟩
  · rw [hbindings, hregions]
    apply List.ext_getElem?
    intro i
    rw [List.map_nil, List.nil_append, List.getElem?_mapIdx, List.getElem?_map, List.getElem?_mapIdx, Option.map_map]
    rfl
  · rw [buildRelocatedRuntimeImage, if_neg hinput, hfresh]
    dsimp only
    rewrite [hok]
    rfl

/-- An image is built only of objects with sizes, as many as there are selectors. -/
theorem build_bound (h : buildRelocatableRuntimeImagePlan load base = .ok plan) {image : RelocatedRuntimeImage}
    (hbuild : buildRelocatedRuntimeImage load plan = .ok image) :
    (∀ object ∈ load.image.mappedObjects, object.record.virtualSize ≠ 0) ∧
      load.image.mappedObjects.length ≤ 8188 := by
  obtain ⟨-, -, -, hregions, -⟩ := buildRelocatableRuntimeImagePlan_ok h
  obtain ⟨allocator, hfresh, haligned, hleft⟩ := objectAllocator
  unfold buildRelocatedRuntimeImage at hbuild
  split_ifs at hbuild
  rw [hfresh] at hbuild
  dsimp only at hbuild
  split at hbuild
  · cases hbuild
  · rename_i bound hbind
    obtain ⟨hsizes, hlength⟩ := bindObjects_ok haligned hbind
    rw [hregions, List.length_mapIdx, hleft] at hlength
    refine ⟨?_, hlength⟩
    intro object hobject
    obtain ⟨i, hi, rfl⟩ := List.mem_iff_getElem.mp hobject
    apply hsizes (relocatableObjectRegion plan.relocationDelta i load.image.mappedObjects[i])
    rw [hregions]
    exact List.mem_mapIdx.mpr ⟨i, hi, rfl⟩

/-- A valid plan predicts the build exactly when the image is predictable. -/
theorem buildsAsPlanned_iff (h : buildRelocatableRuntimeImagePlan load base = .ok plan) (hvalid : plan.valid = true) :
    BuildsAsPlanned load plan ↔ Predictable load := by
  obtain ⟨-, -, -, hregions, -, run, hrun, hdry⟩ := buildRelocatableRuntimeImagePlan_ok h
  have hplanned : plan.relocationDryRun.appliedCount = load.fixupRecordInfo.records.countP
      fun record => sourceKind record = 0x07 ∧ sourceInRange load record = true := by
    rw [hdry]
    exact (dryRunRecords_spec.2 _ hrun).trans (Nat.zero_add _)
  constructor
  · rintro ⟨image, hbuild, happlied⟩
    obtain ⟨hsized, hbound⟩ := build_bound h hbuild
    obtain ⟨bound, hmatches, heq⟩ := build_eq h hvalid hsized hbound
    have hcount : load.image.mappedObjects.length < 2 ^ 32 := by omega
    obtain ⟨hwalkIff, hwalkCount⟩ := @applyRecords_spec load plan load.fixupRecordInfo.records bound {} hcount hmatches
    rw [heq] at hbuild
    split at hbuild
    · cases hbuild
    · rename_i image' run' hwalk
      cases hbuild
      have happliedCount := hwalkCount _ hwalk
      have hnone : (load.fixupRecordInfo.records.countP
          fun record => sourceKind record = 0x03 ∧ sourceInRange load record = true) = 0 := by
        have hsplit := countP_applicable load load.fixupRecordInfo.records
        have hsame : run'.appliedCount = plan.relocationDryRun.appliedCount := happlied
        have hzero : ({} : RelocatableRuntimeRelocationDryRun).appliedCount = 0 := rfl
        dsimp only at happliedCount
        omega
      refine ⟨hsized, hbound, ?_⟩
      intro record hrecord hthree
      have hlocated := hwalkIff.mp ⟨_, hwalk⟩ record hrecord (Or.inr hthree)
      rw [hregions, located_iff hcount] at hlocated
      refine ⟨hlocated, ?_⟩
      have hnot := List.countP_eq_zero.mp hnone record hrecord
      simpa [hthree] using hnot
  · intro hpredictable
    have hcount : load.image.mappedObjects.length < 2 ^ 32 := by
      have := hpredictable.bound
      omega
    obtain ⟨bound, hmatches, heq⟩ := build_eq h hvalid hpredictable.sized hpredictable.bound
    obtain ⟨hwalkIff, hwalkCount⟩ := @applyRecords_spec load plan load.fixupRecordInfo.records bound {} hcount hmatches
    -- the plan has seen to the 32-bit offset records, the condition to the others
    have hall : ∀ record ∈ load.fixupRecordInfo.records, Applicable record →
        (findRelocatedObject plan.objectRegions record.targetObject).isSome ∧ (recordSource load record).isSome := by
      intro record hrecord hkind
      rcases hkind with hseven | hthree
      · exact dryRunRecords_spec.1.mp ⟨run, hrun⟩ record hrecord hseven
      · rw [hregions, located_iff hcount]
        exact (hpredictable.farPointers record hrecord hthree).1
    obtain ⟨⟨image', run'⟩, hwalk⟩ := hwalkIff.mpr hall
    have hnone : (load.fixupRecordInfo.records.countP
        fun record => sourceKind record = 0x03 ∧ sourceInRange load record = true) = 0 := by
      rw [List.countP_eq_zero]
      intro record hrecord
      rw [decide_eq_true_iff]
      rintro ⟨hthree, hin⟩
      rw [(hpredictable.farPointers record hrecord hthree).2] at hin
      cases hin
    rw [hwalk] at heq
    refine ⟨_, heq, ?_⟩
    show run'.appliedCount = _
    rw [hwalkCount _ hwalk, countP_applicable, hnone, hplanned]
    exact Nat.zero_add _

end

/-! ## Images -/

/-- A code object of sixteen bytes. -/
def sampleCode : LeMappedObject where
  record :=
    { virtualSize := 16, relocationBaseAddress := 0x10000, flags := 0x2045, pageTableIndex := 1, pageCount := 1 }
  memory := List.replicate 16 0
  copiedBytes := 16

/-- An object of no size. -/
def sampleEmpty : LeMappedObject where
  record := { virtualSize := 0, relocationBaseAddress := 0x20000, flags := 0x2043, pageTableIndex := 2 }

/-- A record at offset 4 of the first page, for offset 8 of the first object. -/
def sampleRecord (sourceType : Byte) : LeFixupRecord where
  pageIndex := 0
  recordTableOffset := 0
  recordSize := 7
  sourceType := sourceType
  targetFlags := 0
  sourceOffset := 4
  targetObject := 1
  targetOffset := 8
  supported := true

/-- A load result with the entry point at the start of its first object. -/
def sampleLoad (objects : List LeMappedObject) (records : List LeFixupRecord) : Dos4gwLoadResult where
  leHeader := { pageCount := 1, entryObject := 1, pageSize := 4096 }
  image := ⟨true, objects⟩
  fixupRecordInfo := { valid := true, records := records }

theorem buildsAsPlanned_offset_record :
    ∃ plan, buildRelocatableRuntimeImagePlan (sampleLoad [sampleCode] [sampleRecord 0x07]) 0x400000 = .ok plan ∧
      plan.valid = true ∧ BuildsAsPlanned (sampleLoad [sampleCode] [sampleRecord 0x07]) plan := by
  obtain ⟨plan, hplan, hvalid⟩ : ∃ plan,
      buildRelocatableRuntimeImagePlan (sampleLoad [sampleCode] [sampleRecord 0x07]) 0x400000 = .ok plan ∧
        plan.valid = true := ⟨_, rfl, by decide +kernel⟩
  refine ⟨plan, hplan, hvalid, (buildsAsPlanned_iff hplan hvalid).mpr ⟨by decide, by decide, ?_⟩⟩
  intro record hrecord hthree
  rw [List.mem_singleton.mp hrecord] at hthree
  cases hthree

/-- Of an image with an empty object nothing is built, and of one with a 16:16 record the build applies
one fixup where the plan counted none. -/
theorem dryRun_misses_selectors :
    (∃ plan e, buildRelocatableRuntimeImagePlan (sampleLoad [sampleCode, sampleEmpty] []) 0x400000 = .ok plan ∧
      plan.valid = true ∧
      buildRelocatedRuntimeImage (sampleLoad [sampleCode, sampleEmpty] []) plan = .error e ∧
      ¬BuildsAsPlanned (sampleLoad [sampleCode, sampleEmpty] []) plan) ∧
    ∃ plan image, buildRelocatableRuntimeImagePlan (sampleLoad [sampleCode] [sampleRecord 0x03]) 0x400000 = .ok plan ∧
      plan.valid = true ∧ buildRelocatedRuntimeImage (sampleLoad [sampleCode] [sampleRecord 0x03]) plan = .ok image ∧
      plan.relocationDryRun.appliedCount = 0 ∧ image.relocationResult.appliedCount = 1 ∧
      ¬BuildsAsPlanned (sampleLoad [sampleCode] [sampleRecord 0x03]) plan := by
  constructor
  · have hbuild : ∃ plan e,
        buildRelocatableRuntimeImagePlan (sampleLoad [sampleCode, sampleEmpty] []) 0x400000 = .ok plan ∧
        plan.valid = true ∧ buildRelocatedRuntimeImage (sampleLoad [sampleCode, sampleEmpty] []) plan = .error e :=
      ⟨_, _, rfl, by decide +kernel, rfl⟩
    obtain ⟨plan, e, hplan, hvalid, herror⟩ := hbuild
    refine ⟨plan, e, hplan, hvalid, herror, ?_⟩
    rintro ⟨image, hok, -⟩
    rw [herror] at hok
    cases hok
  · have hbuild : ∃ plan image,
        buildRelocatableRuntimeImagePlan (sampleLoad [sampleCode] [sampleRecord 0x03]) 0x400000 = .ok plan ∧
        plan.valid = true ∧ buildRelocatedRuntimeImage (sampleLoad [sampleCode] [sampleRecord 0x03]) plan = .ok image ∧
        plan.relocationDryRun.appliedCount = 0 ∧ image.relocationResult.appliedCount = 1 :=
      ⟨_, _, rfl, by decide +kernel, rfl, by decide +kernel, by decide +kernel⟩
    obtain ⟨plan, image, hplan, hvalid, hok, hplanned, happlied⟩ := hbuild
    refine ⟨plan, image, hplan, hvalid, hok, hplanned, happlied, ?_⟩
    rintro ⟨image', hok', hsame⟩
    rw [hok] at hok'
    cases hok'
    rw [hplanned, happlied] at hsame
    cases hsame

end Repiu.Exe
