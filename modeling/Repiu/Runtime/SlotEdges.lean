import Repiu.Runtime.Emission

/-!
# Edges of long-mode slots

A slot of the 64-bit back end has at most one edge that resolution fills in: a branch of its
record, or a jump on to the next instruction that is part of the slot.
-/

namespace Repiu.Runtime

open Repiu.X86

/-- The second opcode bytes of the near conditional jumps. -/
def conditionOpcodes : List Byte :=
  [0x80, 0x81, 0x82, 0x83, 0x84, 0x85, 0x86, 0x87, 0x88, 0x89, 0x8A, 0x8B, 0x8C, 0x8D, 0x8E, 0x8F]

theorem readConditionOpcode_mem {m : Mnemonic} {opcode : Byte} (h : readConditionOpcode m = some opcode) :
    opcode ∈ conditionOpcodes := by
  cases m with
  | _ => first | (cases h; decide) | cases h

/-- An edge in the bytes of a slot: what is in front of its jump, the jump's opcode, and what is
behind the displacement. -/
structure SlotEdge where
  fixup : AotCodeCacheFixup
  head : List Byte
  opcode : List Byte
  tail : List Byte

namespace SlotEdge

/-- The bytes of the slot with a displacement. -/
def bytes (e : SlotEdge) (displacement : Word) : List Byte :=
  e.head ++ e.opcode ++ le32 displacement ++ e.tail

/-- The edge is the one of the code, which has no displacement yet. -/
structure In (e : SlotEdge) (code : Fragment) : Prop where
  bytes : code.bytes = e.bytes 0
  fixups : (code.fixups.filter fun x => isDirectEdgeFixup x.kind) = [e.fixup]
  patch : e.fixup.cachePatchOffset = e.head.length + e.opcode.length
  opcode : e.opcode = [0xE9] ∨
    (e.fixup.kind = .kConditionalBranch ∧ ∃ c ∈ conditionOpcodes, e.opcode = [0x0F, c])

/-- The edge of code behind other code. -/
def behind (front : List Byte) (e : SlotEdge) : SlotEdge :=
  { e with fixup := e.fixup.move front.length, head := front ++ e.head }

/-- The edge of code in front of other code. -/
def inFrontOf (e : SlotEdge) (back : List Byte) : SlotEdge := { e with tail := e.tail ++ back }

variable {e : SlotEdge} {code other : Fragment}

theorem In.append_left (h : e.In code) (hother : other.fixups = []) :
    (e.behind other.bytes).In (other.append code) where
  bytes := by
    rw [Fragment.append_bytes, h.bytes]
    simp only [SlotEdge.bytes, behind, List.append_assoc]
  fixups := by
    show ((other.fixups ++ code.fixups.map (AotCodeCacheFixup.move other.bytes.length)).filter _) = _
    rw [hother, List.nil_append, List.filter_map]
    show List.map _ (code.fixups.filter fun x => isDirectEdgeFixup x.kind) = _
    rw [h.fixups]
    rfl
  patch := by
    show other.bytes.length + e.fixup.cachePatchOffset = (other.bytes ++ e.head).length + e.opcode.length
    rw [h.patch, List.length_append, Nat.add_assoc]
  opcode := h.opcode

theorem In.append_right (h : e.In code) (hother : other.fixups = []) :
    (e.inFrontOf other.bytes).In (code.append other) where
  bytes := by
    rw [Fragment.append_bytes, h.bytes]
    simp only [SlotEdge.bytes, inFrontOf, List.append_assoc]
  fixups := by
    show ((code.fixups ++ other.fixups.map (AotCodeCacheFixup.move code.bytes.length)).filter _) = _
    rw [hother, List.map_nil, List.append_nil]
    exact h.fixups
  patch := h.patch
  opcode := h.opcode

end SlotEdge

/-- The edge of a record's slot: none, a branch of the record, or a jump on to the address given. -/
inductive SlotShape (code : Fragment) (record : AotInstructionRecord) : Option Word → Prop
  | plain (hnone : ∀ x ∈ code.fixups, isDirectEdgeFixup x.kind = false) : SlotShape code record none
  | branch (e : SlotEdge) (hin : e.In code) (hkind : e.fixup.kind ≠ .kBlockFallthrough)
      (hsource : e.fixup.guestSource = record.guestAddress) : SlotShape code record none
  | jumpsOn (e : SlotEdge) (hin : e.In code) (hkind : e.fixup.kind = .kBlockFallthrough) {target : Word}
      (htarget : e.fixup.guestTarget = target) : SlotShape code record (some target)

section
variable {code other : Fragment} {record : AotInstructionRecord} {target : Option Word}

theorem slotShape_of_fixups_nil (h : code.fixups = []) : SlotShape code record none := by
  apply SlotShape.plain
  rw [h]
  intro x hx
  cases hx

theorem SlotShape.append_left (h : SlotShape code record target) (hother : other.fixups = []) :
    SlotShape (other.append code) record target := by
  cases h with
  | plain hnone =>
    apply SlotShape.plain
    intro x hx
    replace hx : x ∈ other.fixups ++ code.fixups.map (AotCodeCacheFixup.move other.bytes.length) := hx
    rw [hother, List.nil_append] at hx
    obtain ⟨y, hy, rfl⟩ := List.mem_map.mp hx
    exact hnone y hy
  | branch e hin hkind hsource => exact SlotShape.branch _ (hin.append_left hother) hkind hsource
  | jumpsOn e hin hkind htarget => exact SlotShape.jumpsOn _ (hin.append_left hother) hkind htarget

theorem SlotShape.append_right (h : SlotShape code record target) (hother : other.fixups = []) :
    SlotShape (code.append other) record target := by
  cases h with
  | plain hnone =>
    apply SlotShape.plain
    intro x hx
    replace hx : x ∈ code.fixups ++ other.fixups.map (AotCodeCacheFixup.move code.bytes.length) := hx
    rw [hother, List.map_nil, List.append_nil] at hx
    exact hnone x hx
  | branch e hin hkind hsource => exact SlotShape.branch _ (hin.append_right hother) hkind hsource
  | jumpsOn e hin hkind htarget => exact SlotShape.jumpsOn _ (hin.append_right hother) hkind htarget

theorem append_jump (head : List Byte) : head ++ appendRel32 0xE9 = head ++ [0xE9] ++ le32 0 ++ [] := by
  rw [List.append_nil, List.append_assoc]
  rfl

theorem append_jump_append (head tail : List Byte) :
    head ++ appendRel32 0xE9 ++ tail = head ++ [0xE9] ++ le32 0 ++ tail := by
  rw [append_jump, List.append_nil]

/-- Code with the jump of a branch in it. -/
theorem slotShape_edge (head opcode tail : List Byte) {kind : AotFixupKind} {target : Word} {patch : ℕ}
    (hbytes : code.bytes = head ++ opcode ++ le32 0 ++ tail)
    (hfixups : code.fixups = [edgeFixup kind record target patch])
    (hkind : isDirectEdgeFixup kind = true) (hbranch : kind ≠ .kBlockFallthrough)
    (hpatch : patch = head.length + opcode.length)
    (hopcode : opcode = [0xE9] ∨ (kind = .kConditionalBranch ∧ ∃ c ∈ conditionOpcodes, opcode = [0x0F, c])) :
    SlotShape code record none := by
  refine SlotShape.branch ⟨edgeFixup kind record target patch, head, opcode, tail⟩ ?_ hbranch rfl
  refine ⟨hbytes, ?_, hpatch, hopcode⟩
  rw [hfixups, List.filter_eq_self]
  intro x hx
  rw [List.mem_singleton.mp hx]
  exact hkind

/-- Code with a jump on in it, and boundaries. -/
theorem slotShape_jumpsOn (head tail : List Byte) {target : Word} {patch : ℕ}
    (hbytes : code.bytes = head ++ [0xE9] ++ le32 0 ++ tail) (hpatch : patch = head.length + 1)
    (hfixups : (code.fixups.filter fun x => isDirectEdgeFixup x.kind) =
      [edgeFixup .kBlockFallthrough record target patch]) :
    SlotShape code record (some target) := by
  refine SlotShape.jumpsOn ⟨edgeFixup .kBlockFallthrough record target patch, head, [0xE9], tail⟩ ?_ rfl rfl
  exact ⟨hbytes, hfixups, hpatch, Or.inl rfl⟩

end

/-! ## Branches -/

section
variable {table : Table} {host : Host} {options : AotCodeCacheBuildOptions} {record : AotInstructionRecord}
  {slot : LongModeSlot}

theorem slotShape_emitLongModeDirectBranch (h : emitLongModeDirectBranch table host record = some slot) :
    SlotShape slot.code record none := by
  unfold emitLongModeDirectBranch at h
  split at h
  · rw [← Option.some.inj h]
    exact slotShape_edge [] _ [] rfl rfl rfl (by decide) rfl (Or.inl rfl)
  · split_ifs at h
    split at h
    · cases h
    · rw [← Option.some.inj h]
      exact slotShape_of_fixups_nil rfl
  · split at h
    · cases h
    · rename_i push hpush
      rw [← Option.some.inj h]
      exact slotShape_edge _ _ [] (append_jump _) rfl rfl (by decide) rfl (Or.inl rfl)
  · split at h
    · cases h
    · rename_i opcode hopcode
      rw [← Option.some.inj h]
      exact slotShape_edge [] [0x0F, opcode] [] rfl rfl rfl (by decide) rfl
        (Or.inr ⟨rfl, opcode, readConditionOpcode_mem hopcode, rfl⟩)
  · cases h

theorem slotShape_emitLongMode16BitLoopNz (h : emitLongMode16BitLoopNz table record = some slot) :
    SlotShape slot.code record none := by
  unfold emitLongMode16BitLoopNz at h
  split_ifs at h
  rw [← Option.some.inj h]
  exact slotShape_edge [0x9C, 0x66, 0xFF, 0xC9, 0x66, 0x85, 0xC9, 0x74, 17, 0x4C, 0x8B, 0x34, 0x24, 0x49, 0x0F,
    0xBA, 0xE6, 0x06, 0x72, 6, 0x9D] [0xE9] [0x9D] rfl rfl rfl (by decide) rfl (Or.inl rfl)

/-- The canonical spelling of a Group 1 alias has the opcode `80`. -/
theorem canonical_opcode {mode : MachineMode} {bytes canonical : List Byte} {i i' : Instruction}
    (hi : decode table mode bytes = some i)
    (hcanonical : canonicalizeGroup1ImmediateAlias i bytes = some canonical)
    (hi' : decode table mode canonical = some i') : i'.opcode = 0x80 := by
  unfold canonicalizeGroup1ImmediateAlias at hcanonical
  split_ifs at hcanonical with halias hbytes
  rw [not_or, not_or, not_le, not_not] at hbytes
  obtain ⟨hlength, -, hopcode⟩ := hbytes
  obtain ⟨_, _, _, _, hd⟩ := decode_iff.mp hi
  obtain ⟨_, _, _, _, hd'⟩ := decode_iff.mp hi'
  have hall : ∀ b ∈ i.prefixes, isPrefix mode b = true := by
    rw [hd.prefixes_eq]
    exact fun b hb => List.mem_takeWhile_imp hb
  -- the prefixes, the opcode and the rest of the instruction
  obtain ⟨rest, hrest⟩ : ∃ rest, bytes.take i.length = i.prefixes ++ 0x82 :: rest := by
    have hsplit := List.takeWhile_append_dropWhile (p := isPrefix mode) (l := bytes)
    rw [← hd.prefixes_eq] at hsplit
    rw [← hsplit, Instruction.prefixCount, List.getElem?_append_right le_rfl, Nat.sub_self] at hopcode
    obtain ⟨t, ht⟩ : ∃ t, bytes.dropWhile (isPrefix mode) = 0x82 :: t := by
      cases hdrop : bytes.dropWhile (isPrefix mode) with
      | nil =>
        rw [hdrop] at hopcode
        cases hopcode
      | cons b t =>
        rw [hdrop] at hopcode
        exact ⟨t, by rw [Option.some.inj hopcode]⟩
    obtain ⟨n, hn⟩ := Nat.exists_eq_add_of_lt hlength
    refine ⟨t.take n, ?_⟩
    rw [← hsplit, ht, hn, Instruction.prefixCount, Nat.add_assoc, List.take_length_add_append]
    rfl
  have hcode : canonical = i.prefixes ++ 0x80 :: rest := by
    rw [← Option.some.inj hcanonical, hrest, Instruction.prefixCount, List.set_append_right _ _ le_rfl,
      Nat.sub_self]
    rfl
  have hfirst : ∀ b ∈ (0x80 :: rest).head?, isPrefix mode b = false := by
    intro b hb
    rw [List.head?_cons, Option.mem_some_iff] at hb
    rw [← hb]
    cases mode <;> rfl
  have hdrop := (takeWhile_append_of_ne hall hfirst).2
  rw [← hcode] at hdrop
  have hread := hd'.opcode
  rw [hdrop] at hread
  unfold readOpcode at hread
  dsimp only at hread
  have hescape : vectorEscape mode 0x80 (rest.headD 0) = none := by
    cases mode <;> rfl
  rw [hescape] at hread
  dsimp only at hread
  rw [if_neg (by decide), Option.some.injEq, Prod.mk.injEq] at hread
  rw [Instruction.opcode, ← hread.1]

theorem classifyMode16_loopNz {i : Instruction}
    (h : (classifyMode16 i).lowering = .k16BitLoopNzToGuestCx) : i.opcode = 0xE0 ∧ i.mnemonic = .loopne := by
  unfold classifyMode16 at h
  split_ifs at h with _ _ _ _ _ _ _ _ hloop
  all_goals cases h
  rw [isMode16LoopNz, decide_eq_true_eq] at hloop
  exact ⟨hloop.2.1, hloop.2.2.1⟩

/-- A `loopne` has no condition opcode, so its record gets no second branch. -/
theorem readConditionOpcode_of_loopNz (hplanned : Planned table record)
    (h : emitLongMode16BitLoopNz table record = some slot) : readConditionOpcode record.mnemonic = none := by
  unfold emitLongMode16BitLoopNz at h
  split_ifs at h with hrecord hlowering
  rw [not_or, not_or, not_not, not_not] at hrecord
  obtain ⟨-, hsize, hbytes⟩ := hrecord
  rw [not_not] at hlowering
  rcases hplanned with ⟨hnil, -⟩ | ⟨i, hi⟩
  · exact absurd hnil hbytes
  have hdecode := hi.decodes
  rw [hsize] at hdecode
  rw [classifyLongModeBytes, if_neg hbytes, hdecode] at hlowering
  dsimp only at hlowering
  have hmnemonic : i.mnemonic = .loopne := by
    split at hlowering
    · exact (classifyMode16_loopNz hlowering).2
    · rename_i canonical hcanonical
      split at hlowering
      · cases hlowering
      rename_i i' hi'
      split_ifs at hlowering
      · cases hlowering
      · have hopcode := (classifyMode16_loopNz hlowering).1
        rw [canonical_opcode hdecode hcanonical hi'] at hopcode
        cases hopcode
  rw [hi.mnemonic, hmnemonic]
  rfl

/-! ## Segment slots -/

theorem slotShape_emitLongModeGuardedSegmentLoad
    (h : emitLongModeGuardedSegmentLoad table record = some slot) :
    SlotShape slot.code record (some record.next) := by
  unfold emitLongModeGuardedSegmentLoad at h
  split_ifs at h
  obtain ⟨flags, -, rfl⟩ := Option.map_eq_some_iff.mp h
  exact slotShape_jumpsOn _ [] (append_jump _) rfl rfl

theorem slotShape_emitLongModeGuardedSegmentPop
    (h : emitLongModeGuardedSegmentPop table record = some slot) :
    SlotShape slot.code record (some record.fallthroughTarget) := by
  unfold emitLongModeGuardedSegmentPop at h
  split_ifs at h
  obtain ⟨flags, -, rfl⟩ := Option.map_eq_some_iff.mp h
  exact slotShape_jumpsOn _ [] (append_jump _) rfl rfl

theorem slotShape_longModeSegmentReadSlot (head pad : List Byte) (gpr : ℕ) :
    SlotShape (longModeSegmentReadSlot record head pad gpr) record (some record.fallthroughTarget) :=
  slotShape_jumpsOn _ [0xCC] (append_jump_append _ _) rfl rfl

theorem slotShape_emitLongModeGuardedSegmentRead
    (h : emitLongModeGuardedSegmentRead record = some slot) :
    SlotShape slot.code record (some record.fallthroughTarget) := by
  unfold emitLongModeGuardedSegmentRead at h
  split_ifs at h
  rw [← Option.some.inj h]
  exact slotShape_longModeSegmentReadSlot _ _ _

theorem slotShape_emitLongModeGuardedSegmentPush
    (h : emitLongModeGuardedSegmentPush record = some slot) :
    SlotShape slot.code record (some record.fallthroughTarget) := by
  unfold emitLongModeGuardedSegmentPush at h
  split_ifs at h
  rw [← Option.some.inj h]
  exact slotShape_longModeSegmentReadSlot _ _ _

theorem slotShape_emitLongModeSegmentOverride
    (h : emitLongModeSegmentOverride table record = some slot) :
    SlotShape slot.code record (some record.next) := by
  unfold emitLongModeSegmentOverride at h
  simp only [Option.bind_eq_bind, Option.bind_eq_some_iff, Option.pure_def, Option.some.injEq] at h
  obtain ⟨⟨segmentPrefix, i⟩, -, flags, -, rfl⟩ := h
  exact slotShape_jumpsOn _ [] (append_jump _) (congrArg (· + 1) List.length_append.symm) rfl

/-! ## Copies -/

theorem emitLongModeCopy_fixups (h : emitLongModeCopy table record = some slot) : slot.code.fixups = [] := by
  unfold emitLongModeCopy at h
  simp only at h
  split at h
  · cases h
  split at h
  · rw [← Option.some.inj h]
    rfl
  split at h
  · cases h
  split at h
  · cases h
  split at h
  · cases h
  · rw [← Option.some.inj h]
    rfl

theorem emitLinuxX64StackWriteTrace_fixups (value : Word) :
    (emitLinuxX64StackWriteTrace host record value).code.fixups = [] := by
  unfold emitLinuxX64StackWriteTrace
  split_ifs <;> rfl

theorem emitLinuxX64GuestEspTrace_fixups : (emitLinuxX64GuestEspTrace host record).code.fixups = [] := by
  unfold emitLinuxX64GuestEspTrace
  split_ifs <;> rfl

theorem emitLinuxX64NativeMemoryWriteTrace_fixups :
    (emitLinuxX64NativeMemoryWriteTrace table host record).code.fixups = [] := by
  unfold emitLinuxX64NativeMemoryWriteTrace
  dsimp only
  split_ifs <;> rfl

theorem emitLongModeCopySlot_isSome :
    (emitLongModeCopySlot table host record).isSome ↔
      (record.kind = .kCopy ∨ isLongModeCsDataBoundary table record = true) ∧
        (emitLongModeCopy table record).isSome := by
  unfold emitLongModeCopySlot
  dsimp only
  by_cases hcopied : record.kind = .kCopy ∨ isLongModeCsDataBoundary table record = true
  · rw [if_pos hcopied, and_iff_right hcopied]
    cases emitLongModeCopy table record with
    | none => exact Iff.rfl
    | some copy => exact Iff.rfl
  · rw [if_neg hcopied]
    exact iff_of_false (by decide) fun h => hcopied h.1

/-- A copied instruction jumps on where it ends its block. -/
theorem slotShape_emitLongModeCopySlot (h : emitLongModeCopySlot table host record = some slot) :
    SlotShape slot.code record (if isLongModeCsDataBoundary table record then some record.next else none) := by
  unfold emitLongModeCopySlot at h
  dsimp only at h
  split at h
  swap
  · cases h
  split at h
  · cases h
  rename_i copy hcopy
  rw [← Option.some.inj h]
  apply SlotShape.append_right _ emitLinuxX64GuestEspTrace_fixups
  apply SlotShape.append_right _ emitLinuxX64NativeMemoryWriteTrace_fixups
  apply SlotShape.append_right
  · apply SlotShape.append_left _ (emitLongModeCopy_fixups hcopy)
    by_cases hboundary : isLongModeCsDataBoundary table record = true
    · rw [if_pos hboundary, if_pos hboundary]
      exact slotShape_jumpsOn [] [] rfl rfl rfl
    · rw [if_neg hboundary, if_neg hboundary]
      exact slotShape_of_fixups_nil rfl
  · split_ifs
    · exact emitLinuxX64StackWriteTrace_fixups 0
    · rfl

/-! ## The 64-bit back end -/

theorem emitLongModeIndirectCall_fixups (h : emitLongModeIndirectCall table host record = some slot) :
    slot.code.fixups = [] := by
  unfold emitLongModeIndirectCall at h
  split_ifs at h
  simp only [Option.bind_eq_bind, Option.bind_eq_some_iff, Option.pure_def, Option.some.injEq] at h
  obtain ⟨load, -, push, -, rfl⟩ := h
  rfl

theorem emitLongModeJumpTable_fixups (h : emitLongModeJumpTable table host record = some slot) :
    slot.code.fixups = [] := by
  unfold emitLongModeJumpTable at h
  split_ifs at h
  obtain ⟨load, -, rfl⟩ := Option.map_eq_some_iff.mp h
  rfl

theorem slotShape_boundarySlot : SlotShape (boundarySlot .kHleBoundary record) record none := by
  apply SlotShape.plain
  intro x hx
  rw [List.mem_singleton.mp hx]
  rfl

/-- The address a record's slot jumps on to by itself. -/
def slotFallthrough (table : Table) (options : AotCodeCacheBuildOptions) (record : AotInstructionRecord) :
    Option Word :=
  let native := record.guestCodeDefaultOperandSize ≠ .k16
  match record.kind with
  | .kGuardedSegmentLoad =>
    if native ∧ longModeGuardedSegmentLoadEmittable record ∧ (flagsSequences table).isSome then
      some record.next
    else none
  | .kGuardedSegmentPop =>
    if native ∧ longModeGuardedSegmentPopEmittable record ∧ (flagsSequences table).isSome then
      some record.fallthroughTarget
    else none
  | .kGuardedSegmentRead =>
    if native ∧ options.enableGuardedSegmentRead ∧ longModeGuardedSegmentReadEmittable record then
      some record.fallthroughTarget
    else none
  | .kGuardedSegmentPush =>
    if native ∧ options.enableGuardedSegmentRead ∧ longModeGuardedSegmentPushEmittable record then
      some record.fallthroughTarget
    else none
  | .kSegmentOverrideMem =>
    if native ∧ options.enableLongModeSegmentOverride ∧
        (longModeSegmentOverrideEmittable table record).isSome ∧ (flagsSequences table).isSome then
      some record.next
    else none
  | .kHleBoundary =>
    if isLongModeCsDataBoundary table record ∧ (emitLongModeCopy table record).isSome then some record.next
    else none
  | _ => none

/-- A record that is no branch and is not copied: its control slot, or a boundary. -/
theorem emitLongMode_of_control (hjump : record.kind ≠ .kDirectJump) (hbranch : record.kind ≠ .kConditionalBranch)
    (hcopy : record.kind ≠ .kCopy) (hboundary : record.kind ≠ .kHleBoundary) :
    emitLongMode table host options record =
      (emitLongModeControl table host options record).getD ⟨boundarySlot .kHleBoundary record, 1⟩ := by
  have hloop : emitLongMode16BitLoopNz table record = none := by
    rw [emitLongMode16BitLoopNz, if_pos (Or.inl hbranch)]
  have hplant : plantLongModeSafePoint options record = false := by
    simp [plantLongModeSafePoint, hjump, hbranch]
  have hcopySlot : emitLongModeCopySlot table host record = none := by
    have hcs : isLongModeCsDataBoundary table record = false := by
      rw [isLongModeCsDataBoundary, if_pos (Or.inl hboundary)]
    simp [emitLongModeCopySlot, hcs, hcopy]
  rw [emitLongMode, hloop]
  cases emitLongModeControl table host options record with
  | none =>
    dsimp only [LongModeSlot.then]
    rw [hcopySlot]
  | some slot =>
    dsimp only [LongModeSlot.then]
    rw [hplant]
    rfl

/-- A record with a slot of its own kind: that slot outside 16-bit code, if it can be emitted. -/
theorem slotShape_of_emitter (emitted : Option LongModeSlot) {emittable : Prop} [Decidable emittable]
    {target : Word}
    (hcontrol : emitLongModeControl table host options record =
      if record.guestCodeDefaultOperandSize = .k16 then none else emitted)
    (hshape : ∀ slot, emitted = some slot → SlotShape slot.code record (some target))
    (hemittable : emitted.isSome ↔ emittable) :
    SlotShape ((emitLongModeControl table host options record).getD
      ⟨boundarySlot .kHleBoundary record, 1⟩).code record
      (if record.guestCodeDefaultOperandSize ≠ .k16 ∧ emittable then some target else none) := by
  rw [hcontrol]
  by_cases hsize : record.guestCodeDefaultOperandSize = .k16
  · rw [if_pos hsize, if_neg fun h => h.1 hsize]
    exact slotShape_boundarySlot
  rw [if_neg hsize]
  cases hemitted : emitted with
  | none =>
    rw [if_neg]
    · exact slotShape_boundarySlot
    · intro h
      have := hemittable.mpr h.2
      rw [hemitted] at this
      cases this
  | some slot =>
    rw [if_pos ⟨hsize, hemittable.mp (by rw [hemitted]; rfl)⟩]
    exact hshape slot hemitted

theorem isSome_flags_map {f : FlagsSequences → LongModeSlot} {emittable : Bool} :
    (if ¬emittable = true then none else (flagsSequences table).map f).isSome ↔
      emittable = true ∧ (flagsSequences table).isSome := by
  cases emittable with
  | false => simp
  | true => simp

theorem isSome_enabled {enabled emittable : Bool} {slot : LongModeSlot} :
    (if enabled = true then if ¬emittable = true then none else some slot else none).isSome ↔
      enabled = true ∧ emittable = true := by
  cases enabled with
  | false => simp
  | true => cases emittable <;> simp

theorem slotShape_branch (hplanned : Planned table record)
    (hkind : record.kind = .kDirectJump ∨ record.kind = .kConditionalBranch) :
    SlotShape (emitLongMode table host options record).code record none := by
  have hcontrol : ∀ slot, emitLongModeControl table host options record = some slot →
      emitLongModeDirectBranch table host record = some slot := by
    intro slot h
    unfold emitLongModeControl at h
    split at h
    · cases h
    rcases hkind with hk | hk
    all_goals
      rw [hk, Option.or_none] at h
      exact h
  have hcopySlot : emitLongModeCopySlot table host record = none := by
    have hcs : isLongModeCsDataBoundary table record = false := by
      rw [isLongModeCsDataBoundary, if_pos]
      rcases hkind with hk | hk
      all_goals
        rw [hk]
        exact Or.inl (by decide)
    rcases hkind with hk | hk
    all_goals simp [emitLongModeCopySlot, hcs, hk]
  -- at most one of the two emitters has a slot
  have hslot : ∀ slot, LongModeSlot.then (emitLongMode16BitLoopNz table record)
      (emitLongModeControl table host options record) = some slot → SlotShape slot.code record none := by
    intro slot h
    cases hloop : emitLongMode16BitLoopNz table record with
    | none =>
      rw [hloop, LongModeSlot.then] at h
      exact slotShape_emitLongModeDirectBranch (hcontrol slot h)
    | some a =>
      have hnone : emitLongModeControl table host options record = none := by
        rw [Option.eq_none_iff_forall_ne_some]
        intro b hb
        have hdirect := hcontrol b hb
        have hcond : record.kind = .kConditionalBranch := by
          by_contra hne
          rw [emitLongMode16BitLoopNz, if_pos (Or.inl hne)] at hloop
          cases hloop
        rw [emitLongModeDirectBranch, hcond] at hdirect
        dsimp only at hdirect
        rw [readConditionOpcode_of_loopNz hplanned hloop] at hdirect
        cases hdirect
      rw [hloop, hnone] at h
      replace h : some a = some slot := h
      rw [← Option.some.inj h]
      exact slotShape_emitLongMode16BitLoopNz hloop
  unfold emitLongMode
  split
  · rename_i slot h
    split_ifs
    · exact (hslot slot h).append_left rfl
    · exact hslot slot h
  · rw [hcopySlot]
    exact slotShape_boundarySlot

/-- A record that is copied, or emitted like one that is. -/
theorem emitLongMode_of_copy (hkind : record.kind = .kCopy ∨ record.kind = .kHleBoundary) :
    emitLongMode table host options record =
      (emitLongModeCopySlot table host record).getD ⟨boundarySlot .kHleBoundary record, 1⟩ := by
  have hloop : emitLongMode16BitLoopNz table record = none := by
    rw [emitLongMode16BitLoopNz, if_pos]
    rcases hkind with hk | hk
    all_goals
      rw [hk]
      exact Or.inl (by decide)
  have hcontrol : emitLongModeControl table host options record = none := by
    rcases hkind with hk | hk
    all_goals simp [emitLongModeControl, emitLongModeDirectBranch, hk]
  rw [emitLongMode, hloop, hcontrol]
  rfl

/-- The edge of a long-mode slot. -/
theorem slotShape_emitLongMode (hplanned : Planned table record) :
    SlotShape (emitLongMode table host options record).code record
      (slotFallthrough table options record) := by
  have hplain : record.kind ≠ .kDirectJump → record.kind ≠ .kConditionalBranch → record.kind ≠ .kCopy →
      record.kind ≠ .kHleBoundary →
      (∀ slot, emitLongModeControl table host options record = some slot → SlotShape slot.code record none) →
      SlotShape (emitLongMode table host options record).code record none := by
    intro hjump hbranch hcopy hboundary hslot
    rw [emitLongMode_of_control hjump hbranch hcopy hboundary]
    cases hcontrol : emitLongModeControl table host options record with
    | none => exact slotShape_boundarySlot
    | some slot => exact hslot slot hcontrol
  unfold slotFallthrough
  cases hkind : record.kind with
  | kDirectJump => exact slotShape_branch hplanned (Or.inl hkind)
  | kConditionalBranch => exact slotShape_branch hplanned (Or.inr hkind)
  | kGuardedSegmentLoad =>
    rw [emitLongMode_of_control (by simp [hkind]) (by simp [hkind]) (by simp [hkind]) (by simp [hkind])]
    apply slotShape_of_emitter (emitLongModeGuardedSegmentLoad table record)
    · simp [emitLongModeControl, emitLongModeDirectBranch, hkind]
    · exact fun _ h => slotShape_emitLongModeGuardedSegmentLoad h
    · rw [emitLongModeGuardedSegmentLoad, isSome_flags_map]
  | kGuardedSegmentPop =>
    rw [emitLongMode_of_control (by simp [hkind]) (by simp [hkind]) (by simp [hkind]) (by simp [hkind])]
    apply slotShape_of_emitter (emitLongModeGuardedSegmentPop table record)
    · simp [emitLongModeControl, emitLongModeDirectBranch, hkind]
    · exact fun _ h => slotShape_emitLongModeGuardedSegmentPop h
    · rw [emitLongModeGuardedSegmentPop, isSome_flags_map]
  | kGuardedSegmentRead =>
    rw [emitLongMode_of_control (by simp [hkind]) (by simp [hkind]) (by simp [hkind]) (by simp [hkind])]
    apply slotShape_of_emitter
      (if options.enableGuardedSegmentRead then emitLongModeGuardedSegmentRead record else none)
    · simp [emitLongModeControl, emitLongModeDirectBranch, hkind]
    · intro slot h
      split_ifs at h
      exact slotShape_emitLongModeGuardedSegmentRead h
    · exact isSome_enabled
  | kGuardedSegmentPush =>
    rw [emitLongMode_of_control (by simp [hkind]) (by simp [hkind]) (by simp [hkind]) (by simp [hkind])]
    apply slotShape_of_emitter
      (if options.enableGuardedSegmentRead then emitLongModeGuardedSegmentPush record else none)
    · simp [emitLongModeControl, emitLongModeDirectBranch, hkind]
    · intro slot h
      split_ifs at h
      exact slotShape_emitLongModeGuardedSegmentPush h
    · exact isSome_enabled
  | kSegmentOverrideMem =>
    rw [emitLongMode_of_control (by simp [hkind]) (by simp [hkind]) (by simp [hkind]) (by simp [hkind])]
    apply slotShape_of_emitter
      (if options.enableLongModeSegmentOverride then emitLongModeSegmentOverride table record else none)
    · simp [emitLongModeControl, emitLongModeDirectBranch, hkind]
    · intro slot h
      split_ifs at h
      exact slotShape_emitLongModeSegmentOverride h
    · rw [emitLongModeSegmentOverride]
      cases longModeSegmentOverrideEmittable table record with
      | none => simp
      | some p => cases flagsSequences table <;> simp
  | kHleBoundary =>
    rw [emitLongMode_of_copy (Or.inr hkind)]
    have hsome := @emitLongModeCopySlot_isSome table host record
    rw [or_iff_right (by simp [hkind])] at hsome
    cases hcopy : emitLongModeCopySlot table host record with
    | none =>
      rw [hcopy] at hsome
      dsimp only
      rw [if_neg fun h => by cases hsome.mpr h]
      exact slotShape_boundarySlot
    | some slot =>
      rw [hcopy] at hsome
      have hboth := hsome.mp rfl
      have h := slotShape_emitLongModeCopySlot hcopy
      dsimp only
      rw [if_pos hboth]
      rw [if_pos hboth.1] at h
      exact h
  | kCopy =>
    rw [emitLongMode_of_copy (Or.inl hkind)]
    cases hcopy : emitLongModeCopySlot table host record with
    | none => exact slotShape_boundarySlot
    | some slot =>
      have h := slotShape_emitLongModeCopySlot hcopy
      rw [isLongModeCsDataBoundary, if_pos (Or.inl (by simp [hkind]))] at h
      exact h
  | _ =>
    apply hplain (by simp [hkind]) (by simp [hkind]) (by simp [hkind]) (by simp [hkind])
    intro slot h
    unfold emitLongModeControl at h
    split at h
    · cases h
    rcases Option.or_eq_some_iff.mp h with h | ⟨-, h⟩
    · exact slotShape_emitLongModeDirectBranch h
    · rw [hkind] at h
      first
        | cases h
        | exact slotShape_of_fixups_nil (emitLongModeIndirectCall_fixups h)
        | exact slotShape_of_fixups_nil (emitLongModeJumpTable_fixups h)

end

end Repiu.Runtime
