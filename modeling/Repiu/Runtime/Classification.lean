import Repiu.Runtime.PlannerTheorems
import Repiu.X86.Rows

/-!
# Classification

Which kind the planner gives to control transfers and to instructions that load or
store a segment register.  The test for a segment override comes first in the chain
of predicates and does not look at what the instruction does.
-/

namespace Repiu.Runtime

open Repiu.X86

/-- The kinds of control transfers. -/
def AotInstructionKind.isBranch : AotInstructionKind → Bool
  | .kDirectCall | .kDirectJump | .kConditionalBranch | .kReturn | .kFarReturn | .kIndirectExit
  | .kJumpTable => true
  | _ => false

/-- The kinds of guarded segment-register accesses. -/
def AotInstructionKind.isGuardedSegment : AotInstructionKind → Bool
  | .kGuardedSegmentRead | .kGuardedSegmentLoad | .kGuardedSegmentPop | .kGuardedSegmentPush => true
  | _ => false

/-- POP and PUSH of ES, DS, FS and GS. -/
def segmentStackBytes : List (List Byte) :=
  [[0x07], [0x1F], [0x0F, 0xA1], [0x0F, 0xA9], [0x06], [0x1E], [0x0F, 0xA0], [0x0F, 0xA8]]

section
variable {i : Instruction}

theorem bytes_eq_singleton {b : Byte} (hlen : i.length = 1) (h : i.bytes[0]? = some b) :
    i.bytes = [b] := by
  obtain ⟨x, hx⟩ := List.length_eq_one_iff.mp (i.bytes_length.trans hlen)
  rw [hx] at h ⊢
  simpa using h

theorem bytes_eq_pair {b c : Byte} (hlen : i.length = 2) (hb : i.bytes[0]? = some b)
    (hc : i.bytes[1]? = some c) : i.bytes = [b, c] := by
  obtain ⟨x, y, hxy⟩ := List.length_eq_two.mp (i.bytes_length.trans hlen)
  rw [hxy] at hb hc ⊢
  simp only [List.getElem?_cons_zero, List.getElem?_cons_succ, Option.some.injEq] at hb hc
  rw [hb, hc]

theorem readGuardedSegmentPushRegister_bytes {s : ℕ}
    (h : readGuardedSegmentPushRegister i i.bytes = some s) : i.bytes ∈ segmentStackBytes := by
  unfold readGuardedSegmentPushRegister at h
  split_ifs at h with h₀ h₁ h₂ h₃ h₄
  · rw [bytes_eq_singleton h₁.1 h₁.2]
    decide
  · rw [bytes_eq_singleton h₂.1 h₂.2]
    decide
  · rw [bytes_eq_pair h₃.1 h₃.2.1 h₃.2.2]
    decide
  · rw [bytes_eq_pair h₄.1 h₄.2.1 h₄.2.2]
    decide

end

/-! ## Kinds -/

section
variable {input : PlannerInput} {guards : Guards} {block : List AotInstructionRecord}
  {i : Instruction} {codeMode : GuestCodeDefaultOperandSize} {record : AotInstructionRecord}

theorem classifyBranch_isBranch :
    (classifyBranch input guards block i codeMode record).record.kind.isBranch = true := by
  unfold classifyBranch
  dsimp only
  split
  · rfl
  · split <;> rfl

/-- Whether the guard at an address makes the instruction a jump table. -/
def recoversJumpTable (input : PlannerInput) (guards : Guards) (i : Instruction) (address : Word) : Bool :=
  match guards.find address with
  | none => false
  | some guard =>
    !guard.requiresLowByteNormalization &&
      match matchJumpTableBranch i with
      | none => false
      | some (branchRegister, tableAddress) =>
        branchRegister = guard.indexRegister &&
          (readJumpTableTargets input.image tableAddress guard.entryCount []).1

/-- An instruction is a recovered jump table, or goes through the chain of predicates. -/
theorem classifyInstruction_cases (htargets : record.tableTargets = []) :
    (recoversJumpTable input guards i record.guestAddress = true ∧
      (classifyInstruction input guards block i codeMode record).record.kind = .kJumpTable ∧
      (matchJumpTableBranch i).isSome) ∨
    (recoversJumpTable input guards i record.guestAddress = false ∧
      ∃ guards' record', record'.bytes = record.bytes ∧
        classifyInstruction input guards block i codeMode record =
          classifyPlain input guards' block i codeMode record') := by
  unfold recoversJumpTable classifyInstruction
  cases guards.find record.guestAddress with
  | none => exact Or.inr ⟨rfl, guards, record, rfl, rfl⟩
  | some guard =>
    dsimp only
    by_cases hlow : guard.requiresLowByteNormalization = true
    · rw [if_pos hlow, hlow]
      exact Or.inr ⟨rfl, _, record, rfl, rfl⟩
    · rw [if_neg hlow]
      rw [Bool.not_eq_true] at hlow
      rw [hlow]
      cases hmatch : matchJumpTableBranch i with
      | none => exact Or.inr ⟨rfl, guards, record, rfl, rfl⟩
      | some p =>
        obtain ⟨branchRegister, tableAddress⟩ := p
        dsimp only
        by_cases hreg : branchRegister = guard.indexRegister
        · rw [if_neg (not_not.mpr hreg), htargets]
          generalize hread : readJumpTableTargets input.image tableAddress guard.entryCount [] = result
          obtain ⟨ok, targets⟩ := result
          cases ok with
          | true => exact Or.inl ⟨by simp [hreg], rfl, rfl⟩
          | false => exact Or.inr ⟨by simp, guards, { record with tableTargets := targets }, rfl, rfl⟩
        · rw [if_pos hreg]
          exact Or.inr ⟨by simp [hreg], guards, record, rfl, rfl⟩

end

theorem bytes_decodedRecord {table : Table} {codeMode : GuestCodeDefaultOperandSize}
    {bytes : List Byte} {i : Instruction} (address : Word)
    (h : decode table (decoderMode codeMode) (bytes.take maxInstructionLength) = some i) :
    (decodedRecord address codeMode i bytes).bytes = i.bytes := by
  have hle := decode_length_le h
  obtain ⟨_, _, _, _, hdecodes⟩ := decode_iff.mp h
  have htake := congrArg (List.take i.length) hdecodes.input_eq
  rw [List.take_take, Nat.min_eq_left hle, ← i.bytes_length, List.take_left, i.bytes_length] at htake
  exact htake

end Repiu.Runtime
