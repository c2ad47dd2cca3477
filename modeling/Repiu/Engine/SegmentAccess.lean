import Repiu.Engine.SegmentPatch
import Repiu.Runtime.OverrideAccess
import Repiu.Runtime.PlannerTheorems
import Repiu.X86.Rows

/-!
# The patched access of a segment-override slot

Where the access of a patched slot reaches what the guest's instruction reaches.
-/

namespace Repiu.Engine

open Repiu.Runtime Repiu.X86

/-! ## The patched slot -/

/-- The bytes of an override slot, as `EmitSegmentOverrideSlot` writes and
`PatchAotSegmentOverrideSites` patches them. -/
def patchedOverride (segments : AotSegmentTable) (f : Fragment) : List Byte :=
  let emitted : Memory := Memory.setBytes (fun _ => 0) 0 f.bytes
  (List.range f.bytes.length).map (patchAotSegmentOverrideSites 0 segments f.segmentOverrideSites emitted)

/-- The length of the guard in front of the access, and of the jump behind it. -/
def overrideGuardLength : ℕ := 15

def overrideJumpLength : ℕ := 5

/-- The access of a patched slot is that of the guest's instruction `i` on a segment at `base`: the
decoder reads one instruction between the guard and the jump, which stands for it. -/
def AccessPreserved (table : Table) (scale : Instruction → Word) (segments : AotSegmentTable) (f : Fragment)
    (base : Word) (i : Instruction) : Prop :=
  ∃ j, decode table .legacy32 ((patchedOverride segments f).drop overrideGuardLength) = some j ∧
    overrideGuardLength + j.length + overrideJumpLength = f.bytes.length ∧ SameAccess scale base i j

theorem set32_agree {m m' : Memory} {a x : ℕ} (w : Word) (h : m x = m' x) : m.set32 a w x = m'.set32 a w x := by
  unfold Memory.set32 Memory.setBytes
  rw [h]

/-- The patcher opens the guard and folds the segment base into the displacement. -/
theorem patchedOverride_drop {record : AotInstructionRecord} {e : Instruction} {pre post : List Byte}
    {segments : AotSegmentTable} {resolution : AotSegmentResolution}
    (hfind : segments.find record.segmentOverrideRegister = some resolution)
    (hshadow : resolution.shadowAddress ≠ 0) (hpolicy : resolution.policy = .kNativeFolded) :
    (patchedOverride segments (segmentOverrideSlot record e (pre ++ le32 (displacementValue e) ++ post)
        pre.length)).drop overrideGuardLength =
      pre ++ le32 (displacementValue e + resolution.base) ++ post ++ appendRel32 0xE9 := by
  set f := segmentOverrideSlot record e (pre ++ le32 (displacementValue e) ++ post) pre.length with hf
  set guard : List Byte := [0x9C, 0x66, 0x81, 0x3D] ++ le32 0 ++ [0x00, 0x00] ++ [0x74, 0x02, 0x9D, 0xCC, 0x9D]
    with hguard
  have hbytes : f.bytes = (guard ++ pre) ++ (le32 (displacementValue e) ++ (post ++ appendRel32 0xE9)) := by
    simp only [hf, segmentOverrideSlot, hguard, List.append_assoc]
  set folded := (guard ++ pre) ++ (le32 (displacementValue e + resolution.base) ++ (post ++ appendRel32 0xE9))
    with hfolded
  have hlength : f.bytes.length = folded.length := by
    rw [hbytes, hfolded]
    simp only [List.length_append, le32_length]
  have hdisplacement : (Memory.setBytes (fun _ => 0) 0 f.bytes).set32 (0 + (guard.length + pre.length))
      (displacementValue e + resolution.base) = Memory.setBytes (fun _ => 0) 0 folded := by
    rw [hbytes]
    exact Memory.set32_setBytes _ _ (List.length_append).symm (le32_length _) _
  -- behind the guard only the displacement is written
  have hbehind (x : ℕ) (hx : 15 ≤ x) :
      patchAotSegmentOverrideSites 0 segments f.segmentOverrideSites (Memory.setBytes (fun _ => 0) 0 f.bytes) x =
        Memory.setBytes (fun _ => 0) 0 folded x := by
    have hprologue : (recordGuardPrologue f.bytes).length ≤ 5 := List.length_take_le _ _
    rw [← hdisplacement]
    show patchSegmentOverrideSite 0 segments _ _ x = _
    unfold patchSegmentOverrideSite
    simp only [hf, segmentOverrideSlot, hfind]
    rw [if_neg (not_or.mpr ⟨hshadow, not_not.mpr hpolicy⟩)]
    apply set32_agree
    rw [Memory.setBytes_out _ _ (Or.inr (by simp; omega)), Memory.set32_out _ _ (Or.inr (by simp; omega))]
    exact Memory.setBytes_out _ _ (Or.inr (by simpa [hf, segmentOverrideSlot] using hprologue.trans (by omega)))
  have hmap : patchedOverride segments f = (List.range f.bytes.length).map
      (patchAotSegmentOverrideSites 0 segments f.segmentOverrideSites (Memory.setBytes (fun _ => 0) 0 f.bytes)) := rfl
  have htail : (patchedOverride segments f).drop overrideGuardLength = folded.drop overrideGuardLength := by
    rw [hmap, ← Memory.map_setBytes (fun _ => 0) folded, hlength, ← List.map_drop, ← List.map_drop]
    refine List.map_congr_left fun x hx => hbehind x ?_
    obtain ⟨k, hk, rfl⟩ := List.mem_iff_getElem.mp hx
    simp [overrideGuardLength]
  rw [htail, hfolded, List.append_assoc, List.drop_left' (show guard.length = overrideGuardLength from rfl)]
  simp only [List.append_assoc]

/-! ## The access of a planned record -/

section
variable {table : Table} {scale : Instruction → Word} {record : AotInstructionRecord} {i : Instruction}

/-- The instruction in the patched slot of an accepted record stands for the guest's exactly under the
condition of the fold. -/
theorem accessPreserved_iff (hrows : MemoryRows table) (hi : RecordOf table record i) {f : Fragment}
    (hemit : emitSegmentOverrideSlot table record = some f) {segments : AotSegmentTable}
    {resolution : AotSegmentResolution}
    (hfind : segments.find record.segmentOverrideRegister = some resolution)
    (hshadow : resolution.shadowAddress ≠ 0) (hpolicy : resolution.policy = .kNativeFolded)
    {e : Instruction} {p : Byte} (he : decode table .legacy32 record.bytes = some e)
    (hp : segmentPrefixByte record.segmentOverrideRegister = some p) :
    AccessPreserved table scale segments f resolution.base i ↔ Refoldable scale i e p := by
  obtain ⟨e', modrm, p', access, offset, he', hform, hp', haccess, rfl⟩ := overrideForm_of_emitted hemit
  obtain rfl : e' = e := Option.some.inj (he'.symm.trans he)
  obtain rfl : p' = p := Option.some.inj (hp'.symm.trans hp)
  obtain ⟨pre, post, rfl, rfl, hdecode⟩ := decode_access_iff hrows he hform haccess
  have hmode : decoderMode record.guestCodeDefaultOperandSize ≠ .long64 := by
    cases record.guestCodeDefaultOperandSize <;> decide
  have hsame := sameAccess_folded_iff hrows hmode hi.decodes hi.bytes_length he hform
  have hsize (j : Instruction) : overrideGuardLength + j.length + overrideJumpLength =
      (segmentOverrideSlot record e' (pre ++ le32 (displacementValue e') ++ post) pre.length).bytes.length ↔
        j.length = (pre ++ le32 (displacementValue e') ++ post).length := by
    simp only [segmentOverrideSlot, appendRel32, overrideGuardLength, overrideJumpLength, List.length_append,
      List.length_cons, List.length_nil, le32_length]
    omega
  unfold AccessPreserved
  rw [patchedOverride_drop hfind hshadow hpolicy]
  constructor
  · rintro ⟨j, hj, hlength, hmeans⟩
    obtain ⟨hwidth, hforce, hshort, rfl⟩ := (hdecode _ _ j).mp ⟨hj, (hsize j).mp hlength⟩
    exact (hsame hwidth hforce hshort scale resolution.base).mp hmeans
  · intro h
    have hmeans := (hsame h.addressing h.memoryForm h.short scale resolution.base).mpr h
    obtain ⟨hj, hlength⟩ := (hdecode (displacementValue e' + resolution.base) (appendRel32 0xE9) _).mpr
      ⟨h.addressing, h.memoryForm, h.short, rfl⟩
    exact ⟨_, hj, (hsize _).mpr hlength, hmeans⟩

end

/-- A planned override record is left to the boundary path, or gets a slot whose access stands for the
guest's exactly under the condition of the fold. -/
theorem segmentOverride_folds_iff {table : Table} (hrows : MemoryRows table) (scale : Instruction → Word)
    {fuel : ℕ} {image : RelocatedRuntimeImage} {entry : Word} {excluded : List AotExcludedGuestRange}
    {plan : AotTranslationPlan}
    (hplan : buildAotTranslationPlanFromEntry table fuel image entry excluded = some plan)
    {record : AotInstructionRecord} (hrecord : record ∈ plan.records) (hkind : record.kind = .kSegmentOverrideMem) :
    (emitSegmentOverrideSlot table record = none → ∀ options,
      emitLegacy table options record = boundarySlot .kHleBoundary record) ∧
    ∀ f, emitSegmentOverrideSlot table record = some f → ∃ i e p, RecordOf table record i ∧
      decode table .legacy32 record.bytes = some e ∧ segmentPrefixByte record.segmentOverrideRegister = some p ∧
      ∀ segments resolution, AotSegmentTable.find segments record.segmentOverrideRegister = some resolution →
        resolution.shadowAddress ≠ 0 → resolution.policy = .kNativeFolded →
          (AccessPreserved table scale segments f resolution.base i ↔ Refoldable scale i e p) := by
  constructor
  · intro hnone options
    rw [emitLegacy, hkind]
    show slotOr .kHleBoundary record true (emitSegmentOverrideSlot table record) = _
    rw [hnone]
    rfl
  · intro f hemit
    obtain ⟨instructions, hinstructions, hmem⟩ := List.mem_flatten.mp hrecord
    obtain ⟨block, hblock, rfl⟩ := List.mem_map.mp hinstructions
    obtain ⟨i, hi⟩ : ∃ i, RecordOf table record i := by
      refine (planned_records hplan block hblock record hmem).resolve_left fun h => ?_
      rw [hkind] at h
      cases h.2
    obtain ⟨e, _, p, _, _, he, -, hp, -⟩ := overrideForm_of_emitted hemit
    exact ⟨i, e, p, hi, he, hp, fun segments resolution hfind hshadow hpolicy =>
      accessPreserved_iff hrows hi hemit hfind hshadow hpolicy he hp⟩

/-! ## Two guests -/

theorem memoryRows_sampleTable : MemoryRows sampleTable where
  lookup := by
    intro modrm modrm' hform mode key
    simp only [sampleTable, Option.getD_some, defaultRow, hform.reg]
  hasModrm := rfl

/-- A guest of one access through ES and a jump. -/
def overrideSource (bytes : List Byte) : RelocatedRuntimeImage :=
  { valid := true
    objects :=
      [{ relocatedBaseAddress := 0x1000
         virtualSize := 24
         flags := 0
         bytes := bytes ++ [0xFF, 0xE0] ++ List.replicate (22 - bytes.length) 0 }]
    codeModeRanges := [] }

/-- The record of that access. -/
def overrideRecord (bytes : List Byte) : AotInstructionRecord :=
  { guestAddress := 0x1000
    fallthroughTarget := 0x1000 + BitVec.ofNat 32 bytes.length
    kind := .kSegmentOverrideMem
    length := bytes.length
    segmentOverrideRegister := 0
    mnemonic := .mov
    bytes := bytes }

/-- Its plan and its slot. -/
def overridePlan (bytes : List Byte) : AotTranslationPlan :=
  (buildAotTranslationPlanFromEntry sampleTable 8 (overrideSource bytes) 0x1000 []).getD {}

def overrideSlot (bytes : List Byte) : Fragment :=
  (emitSegmentOverrideSlot sampleTable (overrideRecord bytes)).getD {}

/-- A segment table with every segment at 70000h. -/
def overrideSegments : AotSegmentTable :=
  ⟨fun _ => { shadowAddress := 0x9000, selector := 0x2B, base := 0x70000, policy := .kNativeFolded }⟩

/-- `mov eax, es:[edi+16]`: the condition holds, and the patched slot reads the guest's bytes. -/
theorem segmentOverride_folds_edi :
    ∃ i, RecordOf sampleTable (overrideRecord [0x26, 0x8B, 0x47, 0x10]) i ∧
      AccessPreserved sampleTable (fun _ => 1) overrideSegments (overrideSlot [0x26, 0x8B, 0x47, 0x10]) 0x70000 i := by
  have hplan : buildAotTranslationPlanFromEntry sampleTable 8 (overrideSource [0x26, 0x8B, 0x47, 0x10]) 0x1000 [] =
      some (overridePlan [0x26, 0x8B, 0x47, 0x10]) := by decide +kernel
  have hemit : emitSegmentOverrideSlot sampleTable (overrideRecord [0x26, 0x8B, 0x47, 0x10]) =
      some (overrideSlot [0x26, 0x8B, 0x47, 0x10]) := by decide +kernel
  obtain ⟨i, e, p, hi, he, hp, hiff⟩ := (segmentOverride_folds_iff memoryRows_sampleTable (fun _ => 1) hplan
    (show overrideRecord [0x26, 0x8B, 0x47, 0x10] ∈ _ by decide +kernel) rfl).2 _ hemit
  obtain rfl : i = e := Option.some.inj (hi.decodes.symm.trans he)
  obtain rfl : 0x26 = p := Option.some.inj hp
  have hread {α : Type} {a : α} (read : Instruction → α)
      (h : (decode sampleTable .legacy32 [0x26, 0x8B, 0x47, 0x10]).map read = some a) : read i = a := by
    rw [show decode sampleTable .legacy32 [0x26, 0x8B, 0x47, 0x10] = some i from he] at h
    exact Option.some.inj h
  have hwidth : i.addressWidth = 32 := hread Instruction.addressWidth (by decide +kernel)
  have hforce : i.definition.forceRegForm = false := hread (fun i => i.definition.forceRegForm) (by decide +kernel)
  have hdisp : i.disp = [0x10] := hread Instruction.disp (by decide +kernel)
  have hlength : i.length = 4 := hread Instruction.length (by decide +kernel)
  have hnone : effectiveSegment .legacy32 (i.prefixes.erase 0x26) = none :=
    hread (fun i => effectiveSegment .legacy32 (i.prefixes.erase 0x26)) (by decide +kernel)
  refine ⟨i, hi, (hiff overrideSegments _ rfl (by decide) rfl).mpr
    ⟨rfl, rfl, rfl, hwidth, hwidth, hforce, ?_, ?_, ?_⟩⟩
  · rw [Instruction.operandDisplacement, hdisp]
    rfl
  · intro _ s hs
    rw [hnone] at hs
    cases hs
  · rw [hlength, hdisp]
    decide

/-- `mov eax, es:[bx]` with a 16-bit address: the slot keeps the prefix 67h and writes four displacement
bytes, of which the decoder takes two. -/
theorem address16_access_not_preserved :
    overrideRecord [0x67, 0x26, 0x8B, 0x07] ∈ (overridePlan [0x67, 0x26, 0x8B, 0x07]).records ∧
      emitSegmentOverrideSlot sampleTable (overrideRecord [0x67, 0x26, 0x8B, 0x07]) =
        some (overrideSlot [0x67, 0x26, 0x8B, 0x07]) ∧
      ∀ scale i, ¬AccessPreserved sampleTable scale overrideSegments (overrideSlot [0x67, 0x26, 0x8B, 0x07])
        0x70000 i := by
  refine ⟨by decide +kernel, by decide +kernel, ?_⟩
  rintro scale i ⟨j, hj, hlength, -⟩
  have hshort : (decode sampleTable .legacy32 ((patchedOverride overrideSegments
      (overrideSlot [0x67, 0x26, 0x8B, 0x07])).drop overrideGuardLength)).map Instruction.length = some 5 := by
    decide +kernel
  have hslot : (overrideSlot [0x67, 0x26, 0x8B, 0x07]).bytes.length = 27 := by decide +kernel
  rw [hj, Option.map_some, Option.some.injEq] at hshort
  rw [hshort, hslot] at hlength
  exact absurd hlength (by decide)

end Repiu.Engine
