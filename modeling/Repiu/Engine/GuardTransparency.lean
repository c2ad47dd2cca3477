import Repiu.Engine.GuardRuns

/-!
# Transparency of guarded load and pop slots

A guarded slot reads the selector that the guest's instruction reads, lets it through or not, and
leaves the guest's registers and flags either way.
-/

namespace Repiu.Engine

open Repiu.Runtime Repiu.X86

/-- A slot at EIP does what the guest's instruction does with the selector `v` in `place`: it comes to
its first compare with `v` in AX.  If `v` is the shadow or one of the pair, it leaves by its jump with
`v` in the shadow; if not, it ends at its trap with the shadow as it was. -/
structure GuardTransparent (access : GuardedAccess) (f : Fragment) (w : GuardWords) (place : Place)
    (code : DataMemory) (s : CodeState) : Prop where
  reads : ∃ t, s.LeadsTo code t ∧ CodeAt code t.eip (0x66 :: 0x3B :: 0x05 :: le32 w.shadow) ∧
    (t.registers 0).setWidth 16 = place.readHalf s.registers s.memory
  accepts : Accepts s w (place.readHalf s.registers s.memory) → ∃ t, s.LeadsTo code t ∧
    (∃ x ∈ f.fixups, t.eip = s.eip + BitVec.ofNat 32 (x.cachePatchOffset + 4) + w.displacement) ∧
    GuardLeaves s access.released w.shadow w.success (place.readHalf s.registers s.memory) t
  misses : ¬Accepts s w (place.readHalf s.registers s.memory) → ∃ t, s.LeadsTo code t ∧
    t.eip = s.eip + BitVec.ofNat 32 (f.bytes.length - 1) ∧ t.stepSelector code = none ∧
    GuardLeaves s 0 w.shadow w.fallback (s.memory.getHalf w.shadow) t

/-- A popped selector lies above the pushes. -/
theorem operandKept_pop (s : CodeState) : OperandKept s (.memory 0x04 0x24 []) := by
  have htop : effectiveAddress s.registers 0x04 0x24 [] = s.esp :=
    (effectiveAddress_stack _ rfl []).trans (add_zero _)
  show (pushedMemory s).getHalf (effectiveAddress s.registers 0x04 0x24 []) = _
  rw [htop]
  apply getHalf_pushedMemory
  constructor <;> bv_omega

/-- Guarded slots are transparent wherever the pushes leave the operand of a load as it is. -/
theorem guarded_slot_transparent {access : GuardedAccess} {record : AotInstructionRecord} {f : Fragment}
    (hemit : access.emit record = some f) {table : AotSegmentTable} {counters : CounterAddresses}
    {r : AotSegmentResolution} (hfind : table.find record.segmentRegister = some r) (hshadow : r.shadowAddress ≠ 0)
    (hready : counters.ready true = true) (displacement : Word) :
    ∃ place, access.operand record = some place ∧ ∀ (code : DataMemory) (s : CodeState),
      CodeAt code s.eip (patchedGuard access table counters displacement f) →
      GuardApart s (guardWords r counters displacement) → (access = .load → OperandKept s place) →
      GuardTransparent access f (guardWords r counters displacement) place code s := by
  obtain ⟨source, hsource, hpatched, hlength, hfixups⟩ := patchedGuard_eq hemit hfind hshadow hready displacement
  obtain ⟨place, place', hplace, hreads, hmoved⟩ := source_reads hsource
  refine ⟨place, hplace, fun code s hat hapart hload => ?_⟩
  have hkept : OperandKept s place := by
    cases access with
    | load => exact hload rfl
    | pop =>
      rw [← Option.some.inj hplace]
      exact operandKept_pop s
  have hv := hmoved s hkept
  rw [hpatched] at hat
  have hcode := guardCodeAt hat
  constructor
  · obtain ⟨t, hlead, ht, -, heip⟩ := leadsTo_selector hcode hreads hv
    refine ⟨t, hlead, heip ▸ hcode.shadow.left, ?_⟩
    rw [ht.registers, Function.update_self, setWidth_withLow]
  · intro haccept
    obtain ⟨t, hlead, heip, hexit⟩ := guardCode_accepts hcode hapart hreads hv rfl haccept
    refine ⟨t, hlead, ⟨_, hfixups ▸ List.mem_singleton_self _, ?_⟩, hexit⟩
    rw [heip]
    have hbehind : 48 + source.length + access.advance.length = 44 + source.length + access.advance.length + 4 := by
      omega
    rw [hbehind]
    rfl
  · intro hmiss
    obtain ⟨t, hlead, heip, htrap, hexit⟩ := guardCode_misses hcode hapart hreads hv hmiss
    refine ⟨t, hlead, ?_, CodeState.stepSelector_trap htrap, hexit⟩
    have hlast : f.bytes.length - 1 = 56 + source.length + access.advance.length := by omega
    rw [heip, hlast]

/-! ## Two loads from the stack -/

/-- `mov es, [esp + d]`. -/
def stackLoad (d : Byte) : AotInstructionRecord where
  kind := .kGuardedSegmentLoad
  length := 4
  segmentRegister := 0
  gprRegister := kAotSegmentLoadMemorySource
  bytes := [0x8E, 0x44, 0x24, d]

/-- Its slot. -/
def stackGuard (d : Byte) : Fragment := (GuardedAccess.load.emit (stackLoad d)).getD {}

/-- The words of ES, with one word of an accepted pair. -/
def guardResolution : AotSegmentResolution where
  shadowAddress := 0x200000
  pair0Address := 0x200010

def guardSegments : AotSegmentTable := ⟨fun _ => guardResolution⟩

def guardCounters : CounterAddresses := ⟨0x300000, 0x300010⟩

/-- The words of the slot, whose jump is linked to the slot behind it. -/
def stackGuardWords : GuardWords := guardWords guardResolution guardCounters 9

/-- Code memory with the slot at 3000h. -/
def stackGuardCode (d : Byte) : DataMemory :=
  fun x => (patchedGuard .load guardSegments guardCounters 9 (stackGuard d)).getD (x - 0x3000).toNat 0

/-- ESP is 8000h, ES has the selector 24h and may have 2Bh, and the stack has both selectors. -/
def stackGuardState : CodeState :=
  ⟨0x3000, fun r => if r = 4 then 0x8000 else 0, 2,
    (((DataMemory.setHalf (fun _ => 0) 0x8004 0x2B).setHalf 0x7FFC 0x24).setHalf 0x200000 0x24).setHalf 0x200010 0x2B⟩

theorem stackGuardCode_at : CodeAt (stackGuardCode 4) 0x3000
    (patchedGuard .load guardSegments guardCounters 9 (stackGuard 4)) := by
  unfold CodeAt
  decide

theorem stackGuard_apart : GuardApart stackGuardState stackGuardWords := by
  constructor <;> decide

theorem stackGuard_kept : OperandKept stackGuardState (.memory 0x44 0x24 [4]) := by
  unfold OperandKept
  decide

/-- The selector at `[esp + 4]` is let through. -/
theorem guarded_slot_transparent_stack :
    GuardTransparent .load (stackGuard 4) stackGuardWords (.memory 0x44 0x24 [4]) (stackGuardCode 4) stackGuardState := by
  have hemit : GuardedAccess.load.emit (stackLoad 4) = some (stackGuard 4) := rfl
  obtain ⟨place, hplace, h⟩ := @guarded_slot_transparent _ _ _ hemit guardSegments guardCounters guardResolution
    rfl (by decide) rfl 9
  have hsame : place = .memory 0x44 0x24 [4] := Option.some.inj (hplace.symm.trans rfl)
  subst hsame
  exact h _ _ stackGuardCode_at stackGuard_apart fun _ => stackGuard_kept

/-- The selector at `[esp - 4]` is under the pushed flags: it is the shadow, and ends at the trap.
The selector of the pair goes to the shadow alone, not to the word behind it nor to the pair. -/
theorem guarded_slot_misreads :
    (loadOperand (stackLoad 0xFC) = some (.memory 0x44 0x24 [0xFC]) ∧
      CodeAt (stackGuardCode 0xFC) 0x3000 (patchedGuard .load guardSegments guardCounters 9 (stackGuard 0xFC)) ∧
      GuardApart stackGuardState stackGuardWords ∧
      ¬GuardTransparent .load (stackGuard 0xFC) stackGuardWords (.memory 0x44 0x24 [0xFC]) (stackGuardCode 0xFC)
        stackGuardState) ∧
      (CodeState.runSelector (stackGuardCode 4) 12 stackGuardState).map
        (fun t => (t.eip, t.memory.getWord 0x200000, t.memory.getWord 0x200010)) = some (0x3041, 0x2B, 0x2B) := by
  refine ⟨⟨rfl, by unfold CodeAt; decide +kernel, stackGuard_apart, fun h => ?_⟩, by decide +kernel⟩
  have haccept : Accepts stackGuardState stackGuardWords
      (Place.readHalf stackGuardState.registers stackGuardState.memory (.memory 0x44 0x24 [0xFC])) := by
    unfold Accepts
    decide +kernel
  obtain ⟨t, ⟨m, hm⟩, ⟨x, hx, heip⟩, -⟩ := h.accepts haccept
  have hjump : ∀ x ∈ (stackGuard 0xFC).fixups, x.cachePatchOffset = 52 := by decide +kernel
  -- the run is at the trap behind twelve steps
  have htrap : (CodeState.runSelector (stackGuardCode 0xFC) 12 stackGuardState).map CodeState.eip = some 0x3040 := by
    decide +kernel
  obtain ⟨u, hu, hueip⟩ := Option.map_eq_some_iff.mp htrap
  have hstuck : u.stepSelector (stackGuardCode 0xFC) = none := by
    apply CodeState.stepSelector_trap
    rw [hueip]
    decide +kernel
  have hle := CodeState.le_of_stuck hu hstuck hm
  have hnot : ∀ m ≤ 12, (CodeState.runSelector (stackGuardCode 0xFC) m stackGuardState).map CodeState.eip ≠
      some 0x3041 := by decide +kernel
  apply hnot m hle
  rw [hm, Option.map_some, heip, hjump x hx]
  rfl

end Repiu.Engine
