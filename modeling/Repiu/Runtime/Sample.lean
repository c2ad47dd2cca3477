import Repiu.Runtime.Resolution
import Repiu.X86.Rows

/-!
# A small guest

A guest of three instructions around a page boundary and its translation:
`mov eax, ds` and `mov eax, imm32` on one page, the second reaching into the next,
and `jmp eax` behind them.
-/

namespace Repiu.Runtime

open Repiu.X86

theorem defaultRow_ne_push {opcode modrm : Byte} {d : Definition} (h : defaultRow opcode modrm = some d) :
    d.mnemonic ≠ .push := by
  unfold defaultRow at h
  split_ifs at h <;> simp [← Option.some.inj h, row]

theorem controlRow_ne_push {opcode modrm : Byte} {d : Definition} (h : controlRow opcode modrm = some d) :
    d.mnemonic ≠ .push := by
  simp only [controlRow, ite_eq_iff] at h
  rcases h with ⟨-, h⟩ | ⟨-, ⟨-, h⟩ | ⟨-, ⟨-, h⟩ | ⟨-, ⟨-, h⟩ | ⟨-, ⟨-, h⟩ | ⟨-, h⟩⟩⟩⟩⟩
  case inr.inr.inr.inr.inr => exact defaultRow_ne_push h
  all_goals simp [← Option.some.inj h, row]

/-- A table without a `push` row says nothing about pushes. -/
theorem pushRows_of_ne_push {table : Table}
    (hnone : ∀ {mode : MachineMode} {key : Key} {d : Definition},
      table.lookup mode key = some d → d.mnemonic ≠ .push) : PushRows table :=
  ⟨fun h hm => absurd hm (hnone h), fun h hm => absurd hm (hnone h)⟩

theorem pushRows_sampleTable : PushRows sampleTable := by
  refine pushRows_of_ne_push fun {mode key d} h => ?_
  simp only [sampleTable, Option.ite_none_right_eq_some] at h
  exact defaultRow_ne_push h.2

theorem pushRows_controlTable : PushRows controlTable := by
  refine pushRows_of_ne_push fun {mode key d} h => ?_
  simp only [controlTable, Option.ite_none_right_eq_some] at h
  exact controlRow_ne_push h.2

/-- The guest at `0x1FFC`, padded to the decoder's window. -/
def sampleSource : RelocatedRuntimeImage :=
  { valid := true
    objects :=
      [{ relocatedBaseAddress := 0x1FFC
         virtualSize := 24
         flags := 0
         bytes := [0x8C, 0xD8, 0xB8, 0x00, 0x00, 0x00, 0x00, 0xFF, 0xE0] ++ List.replicate 15 0 }]
    codeModeRanges := [] }

/-- The 32-bit back end with guarded segment reads. -/
def sampleOptions : AotCodeCacheBuildOptions := { enableGuardedSegmentRead := true }

/-- The plan of the guest. -/
def samplePlan : AotTranslationPlan :=
  (buildAotTranslationPlanFromEntry sampleTable 8 sampleSource 0x1FFC []).get (by decide +kernel)

/-- The image of the guest: entries at 0, 12 and 17, 92 bytes in all. -/
def sampleImage : AotCodeCacheImage :=
  (buildAotCodeCacheImage ⟨sampleTable, {}, sampleOptions⟩ samplePlan).get (by decide +kernel)

theorem planned_samplePlan :
    buildAotTranslationPlanFromEntry sampleTable 8 sampleSource 0x1FFC [] = some samplePlan :=
  (Option.some_get _).symm

theorem built_sampleImage :
    buildAotCodeCacheImage ⟨sampleTable, {}, sampleOptions⟩ samplePlan = some sampleImage :=
  (Option.some_get _).symm

-- the kernel evaluates these, the elaborator should not
attribute [irreducible] samplePlan sampleImage

end Repiu.Runtime
