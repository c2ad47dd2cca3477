import Repiu.Runtime.PlannerTheorems
import Repiu.Runtime.SlotSpecs

/-!
# What the 64-bit back end guarantees

The counterpart of `slotSpec_emitLegacy`: every long-mode slot meets `SlotSpec`
and has at most 255 bytes.  The observers behind a copied instruction only fit
because a PUSH, which has the stack observer, has no memory write of its own.
-/

namespace Repiu.Runtime

open Repiu.X86

/-! ## Lengths of the lowerings -/

/-- The bytes of an instruction behind its prefixes, with the prefixes in front again. -/
theorem prefixed_length_le (i : Instruction) (bytes : List Byte) :
    i.prefixes.length + ((bytes.take i.length).drop i.prefixCount).length ≤ i.length := by
  simp only [List.length_drop, List.length_take, Instruction.prefixCount, Instruction.length]
  omega

theorem modifyByte_length (bs : List Byte) (index : ℕ) (f : Byte → Byte) :
    (modifyByte bs index f).length = bs.length := by
  simp only [modifyByte, List.length_modify]

theorem lowerLea32_length {bytes : List Byte} {i : Instruction} {seq : Sequence}
    (h : lowerLea32 bytes i = some seq) : seq.flatten.length ≤ i.length + 1 := by
  unfold lowerLea32 at h
  have hpre := prefixed_length_le i bytes
  have hfilter := List.length_filter_le (· ≠ 0x66) i.prefixes
  simp only at h
  split_ifs at h
  all_goals
    simp only [Option.some.injEq] at h
    subst h
    simp only [List.flatten_cons, List.flatten_nil, List.append_nil, modifyByte_length,
      List.length_append, List.length_cons, List.length_nil] at *
    omega

theorem lowerLea16_length {i : Instruction} {seq : Sequence} (h : lowerLea16 i = some seq) :
    seq.flatten.length ≤ 24 := by
  unfold lowerLea16 at h
  split at h
  · contradiction
  simp only at h
  split_ifs at h
  all_goals
    simp only [Option.some.injEq] at h
    subst h
    simp

theorem lowerMoffs_length {bytes : List Byte} {i : Instruction} {seq : Sequence}
    (h : lowerMoffs bytes i = some seq) : seq.flatten.length ≤ 9 := by
  unfold lowerMoffs at h
  simp only at h
  split_ifs at h
  all_goals
    simp only [Option.some.injEq] at h
    subst h
    simp
    omega

theorem lowerHighByteSource_length {bytes : List Byte} {i : Instruction} {seq : Sequence}
    (h : lowerHighByteSource bytes i = some seq) : seq.flatten.length ≤ i.length + 8 := by
  unfold lowerHighByteSource at h
  have hpre := prefixed_length_le i bytes
  simp only at h
  split_ifs at h
  simp only [Option.some.injEq] at h
  subst h
  simp only [List.flatten_cons, List.flatten_nil, List.append_nil, modifyByte_length,
    List.length_append, List.length_cons, List.length_nil] at *
  omega

theorem lowerStackPointer_length {bytes : List Byte} {i : Instruction} {seq : Sequence}
    (h : lowerStackPointer bytes i = some seq) : seq.flatten.length ≤ i.length + 1 := by
  unfold lowerStackPointer at h
  have hpre := prefixed_length_le i bytes
  simp only at h
  split_ifs at h
  all_goals
    simp only [Option.some.injEq] at h
    subst h
    simp only [List.flatten_cons, List.flatten_nil, List.append_nil, modifyByte_length,
      List.length_append, List.length_cons, List.length_nil] at *
    omega

theorem lowerHighByteDestination_length {bytes : List Byte} {i : Instruction} {seq : Sequence}
    (h : lowerHighByteDestination bytes i = some seq) : seq.flatten.length ≤ i.length + 9 := by
  unfold lowerHighByteDestination at h
  have hpre := prefixed_length_le i bytes
  simp only at h
  split_ifs at h
  simp only [Option.some.injEq] at h
  subst h
  simp only [List.flatten_cons, List.flatten_nil, List.append_nil, modifyByte_length,
    List.length_append, List.length_cons, List.length_nil] at *
  omega

theorem lowerAbsolute_length {bytes : List Byte} {i : Instruction} {seq : Sequence}
    (h : lowerAbsolute bytes i = some seq) : seq.flatten.length ≤ i.length + 2 := by
  unfold lowerAbsolute at h
  split_ifs at h
  simp only [Option.some.injEq] at h
  subst h
  simp only [List.flatten_cons, List.flatten_nil, List.append_nil, List.length_append,
    List.length_cons, List.length_nil, List.length_take, List.length_drop]
  omega

/-- A lowering fits its buffer. -/
theorem lowerDecoded_length {lowering : LongModeLowering} {size : GuestCodeDefaultOperandSize}
    {bytes : List Byte} {i : Instruction} {seq : Sequence} (hi : i.length ≤ maxInstructionLength)
    (h : lowerDecoded lowering size bytes i = some seq) : seq.flatten.length ≤ kMaxLoweredBytes := by
  unfold maxInstructionLength at hi
  unfold kMaxLoweredBytes
  unfold lowerDecoded at h
  cases lowering
  case kNone => contradiction
  case k16BitLoopNzToGuestCx => contradiction
  case kStackSequence =>
    simp only at h
    split at h
    · contradiction
    · split_ifs at h with hle
      rw [← Option.some.inj h]
      unfold kMaxLoweredBytes at hle
      omega
  case k16BitLea32ToGuestGprs =>
    simp only at h
    split_ifs at h
    have := lowerLea32_length h
    omega
  case k16BitLea16ToGuestGprs =>
    simp only at h
    split_ifs at h
    have := lowerLea16_length h
    omega
  case kMoffsToSib =>
    have := lowerMoffs_length h
    omega
  case kStackPointerHighByteToR15 =>
    have := lowerHighByteSource_length h
    omega
  case kStackPointerToR15 =>
    have := lowerStackPointer_length h
    omega
  case kStackPointerHighByteDestinationToR15 =>
    have := lowerHighByteDestination_length h
    omega
  case kAbsoluteToSib =>
    have := lowerAbsolute_length h
    omega
  case kGroup1ImmediateAlias =>
    have := lowerAbsolute_length h
    omega
  case kAddressSizePrefix =>
    simp only at h
    split_ifs at h
    rw [← Option.some.inj h]
    simp
    omega
  case kStackPointerImmediateToR15 =>
    simp only at h
    split_ifs at h
    rw [← Option.some.inj h]
    simp
    omega
  -- the remaining rewrites have a fixed length
  all_goals
    simp only at h
    split_ifs at h
    all_goals
      rw [← Option.some.inj h]
      simp

theorem canonicalizeGroup1ImmediateAlias_length {i : Instruction} {bytes canonical : List Byte}
    (h : canonicalizeGroup1ImmediateAlias i bytes = some canonical) : canonical.length ≤ i.length := by
  unfold canonicalizeGroup1ImmediateAlias at h
  split_ifs at h
  rw [← Option.some.inj h, List.length_set, List.length_take]
  omega

theorem lowerLongModeBytes_length {table : Table} {bytes : List Byte}
    {size : GuestCodeDefaultOperandSize} {seq : Sequence}
    (h : lowerLongModeBytes table bytes size = some seq) : seq.flatten.length ≤ kMaxLoweredBytes := by
  unfold lowerLongModeBytes at h
  simp only at h
  rw [ite_eq_iff] at h
  simp only [reduceCtorEq, and_false, false_or] at h
  replace h := h.2
  split at h
  · contradiction
  rename_i i hi
  split at h
  · exact lowerDecoded_length (decode_length_le hi) h
  rename_i canonical hcanonical
  split at h
  · rw [← Option.some.inj h]
    have := canonicalizeGroup1ImmediateAlias_length hcanonical
    have := decode_length_le hi
    unfold maxInstructionLength at this
    simp [kMaxLoweredBytes]
    omega
  · split at h
    · contradiction
    split at h
    · contradiction
    · rename_i hi'
      exact lowerDecoded_length (decode_length_le hi') h

/-! ## Control slots -/

/-- Bytes without sites. -/
theorem gapSpec_ofBytes (bytes : List Byte) : GapSpec (Fragment.ofBytes bytes) where
  fixups := fixupsIn_nil rfl
  windows := by simp [WindowsIn, Fragment.placementWindows, Fragment.ofBytes]
  no_views := rfl
  no_chain := rfl

/-- Bytes with one displacement for a fixup. -/
theorem gapSpec_edge {bytes : List Byte} {x : AotCodeCacheFixup}
    (hin : x.cachePatchOffset + 4 ≤ bytes.length) (hpos : 0 < x.cachePatchOffset) :
    GapSpec { bytes := bytes, fixups := [x] } where
  fixups := by
    refine fixupsIn_single rfl ?_ fun _ => hpos
    have := fixupWidth_le bytes x
    simp only
    omega
  windows := by simp [WindowsIn, Fragment.placementWindows]
  no_views := rfl
  no_chain := rfl

/-- A slot of the 64-bit back end: it meets its specification and its length fits a byte. -/
structure LongModeSpec (f : Fragment) : Prop where
  spec : SlotSpec f
  no_chain : f.indirectInlineCacheSites = []
  short : f.bytes.length ≤ 255

theorem GapSpec.longModeSpec {f : Fragment} (h : GapSpec f) (hpos : 0 < f.bytes.length)
    (hshort : f.bytes.length ≤ 255) : LongModeSpec f :=
  ⟨h.slotSpec hpos, h.no_chain, hshort⟩

theorem lowerPushImmediate_length {table : Table} {value : Word} {push : Sequence}
    (h : lowerPushImmediate table value = some push) : push.flatten.length ≤ kMaxLoweredBytes := by
  unfold lowerPushImmediate at h
  split at h
  · contradiction
  · rename_i hlow
    split_ifs at h
    rw [← Option.some.inj h]
    exact lowerLongModeBytes_length hlow

theorem emitLinuxX64StackWriteTrace_spec (host : Host) (record : AotInstructionRecord) (value : Word) :
    GapSpec (emitLinuxX64StackWriteTrace host record value).code ∧
      (emitLinuxX64StackWriteTrace host record value).code.bytes.length ≤ 89 := by
  unfold emitLinuxX64StackWriteTrace
  split_ifs
  · exact ⟨gapSpec_empty, by simp⟩
  · exact ⟨gapSpec_ofBytes _, by simp [Fragment.ofBytes, frameStackTraceMask]⟩

theorem emitLinuxX64GuestEspTrace_spec (host : Host) (record : AotInstructionRecord) :
    GapSpec (emitLinuxX64GuestEspTrace host record).code ∧
      (emitLinuxX64GuestEspTrace host record).code.bytes.length ≤ 32 := by
  unfold emitLinuxX64GuestEspTrace
  split_ifs
  · exact ⟨gapSpec_empty, by simp⟩
  · exact ⟨gapSpec_ofBytes _, by simp [Fragment.ofBytes]⟩

theorem emitLinuxX64NativeMemoryWriteTrace_spec (table : Table) (host : Host)
    (record : AotInstructionRecord) :
    GapSpec (emitLinuxX64NativeMemoryWriteTrace table host record).code ∧
      (emitLinuxX64NativeMemoryWriteTrace table host record).code.bytes.length ≤ 139 := by
  unfold emitLinuxX64NativeMemoryWriteTrace
  have hobserver : (nativeMemoryWriteObserver host record).length = 115 := by
    simp [nativeMemoryWriteObserver]
  simp only
  split_ifs
  · exact ⟨gapSpec_empty, by simp⟩
  · exact ⟨gapSpec_empty, by simp⟩
  · exact ⟨gapSpec_ofBytes _, by simp [Fragment.ofBytes, hobserver]⟩
  · exact ⟨gapSpec_ofBytes _, by simp [Fragment.ofBytes, hobserver]⟩

theorem longModeSpec_emitLongMode16BitLoopNz {table : Table} {record : AotInstructionRecord}
    {slot : LongModeSlot} (h : emitLongMode16BitLoopNz table record = some slot) :
    GapSpec slot.code ∧ 0 < slot.code.bytes.length ∧ slot.code.bytes.length ≤ 27 := by
  unfold emitLongMode16BitLoopNz at h
  split_ifs at h
  simp only [Option.some.injEq] at h
  subst h
  refine ⟨gapSpec_edge ?_ ?_, ?_, ?_⟩
  all_goals simp [edgeFixup, appendRel32]

theorem longModeSpec_emitLongModeDirectBranch {table : Table} {host : Host}
    {record : AotInstructionRecord} {slot : LongModeSlot}
    (h : emitLongModeDirectBranch table host record = some slot) :
    GapSpec slot.code ∧ 0 < slot.code.bytes.length ∧ slot.code.bytes.length ≤ 142 := by
  unfold emitLongModeDirectBranch at h
  split at h
  · rw [← Option.some.inj h]
    exact ⟨gapSpec_emitJump record, by simp [emitJump, appendRel32], by simp [emitJump, appendRel32]⟩
  · split_ifs at h
    split at h
    · contradiction
    · rw [← Option.some.inj h]
      refine ⟨gapSpec_ofBytes _, by simp [Fragment.ofBytes], ?_⟩
      simp only [Fragment.ofBytes, emitLongModeReturnStackAdjustment]
      split_ifs <;> simp
  · split at h
    · contradiction
    · rename_i push hpush
      rw [← Option.some.inj h]
      have hlen := lowerPushImmediate_length hpush
      have htrace := (emitLinuxX64StackWriteTrace_spec host record record.fallthroughTarget).2
      unfold kMaxLoweredBytes at hlen
      refine ⟨gapSpec_edge ?_ ?_, ?_, ?_⟩
      all_goals simp [edgeFixup, appendRel32] at *
      all_goals omega
  · split at h
    · contradiction
    · rw [← Option.some.inj h]
      refine ⟨gapSpec_edge ?_ ?_, ?_, ?_⟩
      all_goals simp [edgeFixup, appendRel32]
  · contradiction

/-! ## Segment slots -/

theorem flagsSequences_length {table : Table} {flags : FlagsSequences}
    (h : flagsSequences table = some flags) :
    flags.save.flatten.length ≤ kMaxLoweredBytes ∧ flags.restore.flatten.length ≤ kMaxLoweredBytes := by
  unfold flagsSequences at h
  simp only [Option.bind_eq_bind, Option.bind_eq_some_iff, Option.pure_def, Option.some.injEq] at h
  obtain ⟨save, hsave, restore, hrestore, rfl⟩ := h
  exact ⟨lowerLongModeBytes_length hsave, lowerLongModeBytes_length hrestore⟩

theorem longModeOverrideAccess_spec (bytes : List Byte) (segmentPrefix : Byte) (i : Instruction) :
    (longModeOverrideAccess bytes segmentPrefix i).2 + 4 ≤
        (longModeOverrideAccess bytes segmentPrefix i).1.length ∧
      (longModeOverrideAccess bytes segmentPrefix i).1.length ≤ 3 * bytes.length + 7 := by
  have hfilter := List.length_filter_le (· ≠ segmentPrefix) (bytes.take i.prefixCount)
  unfold longModeOverrideAccess
  simp only [List.length_append, List.length_take, List.length_drop, List.length_cons,
    List.length_nil, le32_length] at hfilter ⊢
  split_ifs <;> simp only [List.length_cons, List.length_nil] <;> omega

/-- Two fixups: a boundary that only marks a byte and a jump to be filled in. -/
theorem fixupsIn_boundary_edge {f : Fragment} {record : AotInstructionRecord} {target : Word} {a b : ℕ}
    (hf : f.fixups = [edgeFixup .kHleBoundary record 0 a, edgeFixup .kBlockFallthrough record target b])
    (hab : a < b) (hb : b + 4 ≤ f.bytes.length) : FixupsIn f := by
  refine ⟨?_, ?_, ?_⟩
  · intro x hx
    rw [hf] at hx
    simp only [List.mem_cons, List.not_mem_nil, or_false] at hx
    rcases hx with rfl | rfl
    · simp [fixupWidth, isExternalFixup, edgeFixup]
      omega
    · simp [fixupWidth, isExternalFixup, edgeFixup]
      omega
  · intro x hx hext
    rw [hf] at hx
    simp only [List.mem_cons, List.not_mem_nil, or_false] at hx
    rcases hx with rfl | rfl
    · simp [isExternalFixup, edgeFixup] at hext
    · simp only [edgeFixup]
      omega
  · rw [hf]
    simp [fixupWidth, isExternalFixup, edgeFixup]
    omega

theorem longModeSpec_longModeOverrideSlot (record : AotInstructionRecord) {flags : FlagsSequences}
    (i : Instruction) {access : List Byte} {offset : ℕ} (hoffset : offset + 4 ≤ access.length) :
    SlotSpec (longModeOverrideSlot record flags i access offset).code := by
  refine slotSpec_segment (by simp [longModeOverrideSlot]) ?_ rfl rfl rfl rfl rfl ?_
  · refine fixupsIn_boundary_edge rfl ?_ ?_
    all_goals simp [longModeOverrideSlot, appendRel32]
    all_goals omega
  · simp [AotSegmentOverrideSite.view, longModeOverrideSlot, appendRel32]
    omega

theorem longModeSpec_emitLongModeSegmentOverride {table : Table} {record : AotInstructionRecord}
    {slot : LongModeSlot} (h : emitLongModeSegmentOverride table record = some slot)
    (hlen : record.bytes.length ≤ 15) : LongModeSpec slot.code := by
  unfold emitLongModeSegmentOverride at h
  simp only [Option.bind_eq_bind, Option.bind_eq_some_iff, Option.pure_def, Option.some.injEq] at h
  obtain ⟨⟨segmentPrefix, i⟩, -, flags, hflags, h⟩ := h
  subst h
  obtain ⟨hsave, hrestore⟩ := flagsSequences_length hflags
  obtain ⟨hoffset, haccess⟩ := longModeOverrideAccess_spec record.bytes segmentPrefix i
  refine ⟨longModeSpec_longModeOverrideSlot record i hoffset, rfl, ?_⟩
  unfold kMaxLoweredBytes at hsave hrestore
  simp only [longModeOverrideSlot, appendRel32, List.length_append, List.length_cons, le32_length,
    List.length_nil]
  omega

/-- The shape of a shadow slot. -/
theorem shadowSlot_spec {table : Table} {flags : FlagsSequences} (hflags : flagsSequences table = some flags)
    (compare advance : List Byte) (hcompare : compare ≠ []) :
    0 < (shadowSlot flags compare advance).shadowAddressOffset ∧
      (shadowSlot flags compare advance).shadowAddressOffset + 4 ≤
        (shadowSlot flags compare advance).bytes.length ∧
      (shadowSlot flags compare advance).fallbackOffset <
        (shadowSlot flags compare advance).patchOffset ∧
      (shadowSlot flags compare advance).patchOffset + 4 =
        (shadowSlot flags compare advance).bytes.length ∧
      (shadowSlot flags compare advance).bytes.length ≤ 156 + compare.length + advance.length := by
  obtain ⟨hsave, hrestore⟩ := flagsSequences_length hflags
  have hpos := List.length_pos_iff.mpr hcompare
  unfold kMaxLoweredBytes at hsave hrestore
  unfold shadowSlot
  simp only [appendRel32, List.length_append, List.length_cons, le32_length, List.length_nil]
  refine ⟨?_, ?_, ?_, trivial, ?_⟩ <;> omega

theorem longModeSpec_emitLongModeGuardedSegmentLoad {table : Table} {record : AotInstructionRecord}
    {slot : LongModeSlot} (h : emitLongModeGuardedSegmentLoad table record = some slot) :
    LongModeSpec slot.code := by
  unfold emitLongModeGuardedSegmentLoad at h
  split_ifs at h
  obtain ⟨flags, hflags, rfl⟩ := Option.map_eq_some_iff.mp h
  simp only
  obtain ⟨hpos, hin, hlt, hpatch, hlen⟩ := shadowSlot_spec hflags
    [0x67, 0x66, 0x39, 0x04 ||| BitVec.ofNat 8 (record.gprRegister <<< 3), 0x25] [] (by simp)
  simp only [List.length_cons, List.length_nil] at hlen
  generalize shadowSlot flags
    [0x67, 0x66, 0x39, 0x04 ||| BitVec.ofNat 8 (record.gprRegister <<< 3), 0x25] [] = slot at *
  refine ⟨slotSpec_segment ?_ (fixupsIn_boundary_edge rfl hlt ?_) rfl rfl rfl rfl rfl ?_, rfl, ?_⟩
  · simp only
    omega
  · simp only
    omega
  · simp [AotGuardedSegmentLoadSite.view, guardedWindows]
    omega
  · simp only
    omega

theorem longModeSpec_emitLongModeGuardedSegmentPop {table : Table} {record : AotInstructionRecord}
    {slot : LongModeSlot} (h : emitLongModeGuardedSegmentPop table record = some slot) :
    LongModeSpec slot.code := by
  unfold emitLongModeGuardedSegmentPop at h
  split_ifs at h
  obtain ⟨flags, hflags, rfl⟩ := Option.map_eq_some_iff.mp h
  simp only
  obtain ⟨hpos, hin, hlt, hpatch, hlen⟩ := shadowSlot_spec hflags
    [0x45, 0x8B, 0x77, 0x04, 0x67, 0x66, 0x44, 0x3B, 0x34, 0x25] [0x45, 0x8D, 0x7F, 0x04] (by simp)
  simp only [List.length_cons, List.length_nil] at hlen
  generalize shadowSlot flags
    [0x45, 0x8B, 0x77, 0x04, 0x67, 0x66, 0x44, 0x3B, 0x34, 0x25] [0x45, 0x8D, 0x7F, 0x04] = slot at *
  refine ⟨slotSpec_segment ?_ (fixupsIn_boundary_edge rfl hlt ?_) rfl rfl rfl rfl rfl ?_, rfl, ?_⟩
  · simp only
    omega
  · simp only
    omega
  · simp [AotGuardedSegmentPopSite.view, guardedWindows]
    omega
  · simp only
    omega

theorem longModeSpec_longModeSegmentReadSlot (record : AotInstructionRecord) {head pad : List Byte}
    (gpr : ℕ) (hhead : head ≠ []) (hlen : head.length ≤ 10) (hpad : pad.length ≤ 3) :
    LongModeSpec (longModeSegmentReadSlot record head pad gpr) := by
  have hpos := List.length_pos_iff.mpr hhead
  refine ⟨slotSpec_segment ?_ ⟨?_, ?_, ?_⟩ rfl rfl rfl rfl rfl ?_, rfl, ?_⟩
  · simp [longModeSegmentReadSlot]
  · intro x hx
    simp only [longModeSegmentReadSlot, List.mem_cons, List.not_mem_nil, or_false] at hx
    rcases hx with rfl | rfl
    all_goals simp [longModeSegmentReadSlot, fixupWidth, isExternalFixup, edgeFixup, appendRel32]
    all_goals omega
  · intro x hx hext
    simp only [longModeSegmentReadSlot, List.mem_cons, List.not_mem_nil, or_false] at hx
    rcases hx with rfl | rfl
    · simp [edgeFixup]
    · simp [edgeFixup, isExternalFixup] at hext
  · simp [longModeSegmentReadSlot, fixupWidth, isExternalFixup, edgeFixup]
  · simp [AotGuardedSegmentReadSite.view, longModeSegmentReadSlot, appendRel32]
    omega
  · simp [longModeSegmentReadSlot, appendRel32]
    omega

theorem longModeSpec_emitLongModeGuardedSegmentRead {record : AotInstructionRecord}
    {slot : LongModeSlot} (h : emitLongModeGuardedSegmentRead record = some slot) :
    LongModeSpec slot.code := by
  unfold emitLongModeGuardedSegmentRead at h
  split_ifs at h
  rw [← Option.some.inj h]
  refine longModeSpec_longModeSegmentReadSlot record _ (by simp) ?_ ?_
  · split_ifs <;> simp
  · split_ifs <;> simp

theorem longModeSpec_emitLongModeGuardedSegmentPush {record : AotInstructionRecord}
    {slot : LongModeSlot} (h : emitLongModeGuardedSegmentPush record = some slot) :
    LongModeSpec slot.code := by
  unfold emitLongModeGuardedSegmentPush at h
  split_ifs at h
  rw [← Option.some.inj h]
  exact longModeSpec_longModeSegmentReadSlot record _ (by simp) (by simp) (by simp)

/-! ## Loaded targets -/

theorem lowerLongModeTargetLoad_length {table : Table} {bytes load : List Byte} {reg : ℕ}
    (h : lowerLongModeTargetLoad table bytes reg = some load) : load.length + 1 ≤ kMaxLoweredBytes := by
  unfold lowerLongModeTargetLoad at h
  split at h
  · simp only at h
    split at h
    · contradiction
    split at h
    · contradiction
    split at h
    · contradiction
    split at h
    · contradiction
    · rename_i hbad
      rw [← Option.some.inj h]
      omega
  · contradiction

theorem targetLoadToR14_length (load : List Byte) : (targetLoadToR14 load).length = load.length + 1 := by
  simp only [targetLoadToR14, List.length_append, List.length_take, List.length_drop,
    List.length_singleton]
  omega

theorem longModeSpec_emitLongModeIndirectCall {table : Table} {host : Host}
    {record : AotInstructionRecord} {slot : LongModeSlot}
    (h : emitLongModeIndirectCall table host record = some slot) : LongModeSpec slot.code := by
  unfold emitLongModeIndirectCall at h
  split_ifs at h
  simp only [Option.bind_eq_bind, Option.bind_eq_some_iff, Option.pure_def, Option.some.injEq] at h
  obtain ⟨load, hload, push, hpush, rfl⟩ := h
  have hload := lowerLongModeTargetLoad_length hload
  have hpush := lowerPushImmediate_length hpush
  unfold kMaxLoweredBytes at hload hpush
  refine ⟨slotSpec_ofBytes (by simp [thunkTransfer]), rfl, ?_⟩
  simp only [Fragment.ofBytes, List.length_append, targetLoadToR14_length, thunkTransfer,
    List.length_cons, List.length_nil, le32_length, le64_length]
  omega

theorem longModeSpec_emitLongModeJumpTable {table : Table} {host : Host}
    {record : AotInstructionRecord} {slot : LongModeSlot}
    (h : emitLongModeJumpTable table host record = some slot) : LongModeSpec slot.code := by
  unfold emitLongModeJumpTable at h
  split_ifs at h
  obtain ⟨load, hload, rfl⟩ := Option.map_eq_some_iff.mp h
  have hlen : load.length + 1 ≤ kMaxLoweredBytes := by
    unfold lowerLongModeJumpTableTargetLoad at hload
    simp only at hload
    split_ifs at hload
    all_goals exact lowerLongModeTargetLoad_length hload
  unfold kMaxLoweredBytes at hlen
  refine ⟨slotSpec_ofBytes (by simp [thunkTransfer]), rfl, ?_⟩
  simp only [Fragment.ofBytes, List.length_append, targetLoadToR14_length, thunkTransfer,
    List.length_cons, List.length_nil, le32_length, le64_length]
  omega

/-! ## Copied instructions -/

/-- The opcodes of PUSH, in the default and the `0F` map. -/
def pushOpcodes : List Byte :=
  [0x06, 0x0E, 0x16, 0x1E, 0x50, 0x51, 0x52, 0x53, 0x54, 0x55, 0x56, 0x57, 0x68, 0x6A, 0xFF, 0xA0, 0xA8]

/-- What the decoder's tables say of PUSH: its opcodes, and that it only reads the operands it
shows. -/
structure PushRows (table : Table) : Prop where
  opcode : ∀ {mode key d}, table.lookup mode key = some d → d.mnemonic = .push → key.opcode ∈ pushOpcodes
  reads : ∀ {mode key d}, table.lookup mode key = some d → d.mnemonic = .push →
    ∀ t ∈ d.operands.take d.visibleOperands, t.write = false

theorem operand_write (i : Instruction) (t : OperandTemplate) : (i.operand t).write = t.write := by
  unfold Instruction.operand
  split
  case h_2 => split_ifs <;> rfl
  all_goals rfl

theorem visible_not_written {table : Table} (hpush : PushRows table) {mode : MachineMode}
    {bytes : List Byte} {i : Instruction} (h : decode table mode bytes = some i)
    (hm : i.mnemonic = .push) : ∀ op ∈ i.visible, op.write = false := by
  obtain ⟨_, _, _, _, h⟩ := decode_iff.mp h
  intro op hop
  simp only [Instruction.visible, Instruction.operands, ← List.map_take, List.mem_map] at hop
  obtain ⟨t, ht, rfl⟩ := hop
  rw [operand_write]
  exact hpush.reads h.definition hm t ht

theorem opcode_mem_pushOpcodes {table : Table} (hpush : PushRows table) {mode : MachineMode}
    {bytes : List Byte} {i : Instruction} (h : decode table mode bytes = some i)
    (hm : i.mnemonic = .push) : i.opcode ∈ pushOpcodes := by
  obtain ⟨_, _, _, _, h⟩ := decode_iff.mp h
  exact hpush.opcode h.definition hm

/-- No 16-bit PUSH is copied. -/
theorem classifyMode16_push {i : Instruction} (h : i.opcode ∈ pushOpcodes) :
    classifyMode16 i = refuse .kOperandWidth := by
  have hne : pushOpcodes.all fun b => b ≠ 0xBC ∧ b ≠ 0x89 ∧ b ≠ 0x8B ∧ b ≠ 0xC1 ∧ b ≠ 0x25 ∧ b ≠ 0x85 ∧ b ≠ 0x8D ∧
      b ≠ 0xE0 ∧ ¬(0xB8 ≤ b ∧ b ≤ 0xBF) := by
    decide
  obtain ⟨h₁, h₂, h₃, h₄, h₅, h₆, h₇, h₈, h₉⟩ := of_decide_eq_true (List.all_eq_true.mp hne _ h)
  have hmov : isMode16MovImmediate i = false := by
    simp only [isMode16MovImmediate, decide_eq_false_iff_not]
    tauto
  simp only [classifyMode16, isMovStackPointerImmediate16, hmov, isMode16MovRegister,
    isMode16Shift32, isMode16AndAccumulatorImmediate, isMode16Test32, isMode16Lea32, isMode16Lea16,
    isMode16LoopNz, h₁, h₂, h₃, h₄, h₅, h₆, h₇, h₈, ne_eq, not_false_eq_true, true_or, or_true,
    or_self, false_and, and_false, decide_false, Bool.false_eq_true, if_false, if_true,
    Option.isSome_none]

/-- A PUSH that is copied is 32-bit code, so its observer finds no memory write. -/
theorem hasExplicitMemoryWrite_push {table : Table} (hpush : PushRows table)
    {record : AotInstructionRecord} (hplanned : Planned table record) (hm : record.mnemonic = .push)
    {slot : LongModeSlot} (hcopy : emitLongModeCopy table record = some slot) :
    hasExplicitMemoryWrite table record = false := by
  unfold emitLongModeCopy at hcopy
  rcases hplanned with ⟨hnil, -⟩ | ⟨i, hi⟩
  · simp [hnil] at hcopy
  have him : i.mnemonic = .push := hi.mnemonic.symm.trans hm
  by_cases h16 : record.guestCodeDefaultOperandSize = .k16
  · have hop := opcode_mem_pushOpcodes hpush hi.decodes him
    have h82 : i.opcode ≠ 0x82 := by
      rintro heq
      rw [heq] at hop
      exact absurd hop (by decide)
    have hverdict : classifyLongModeBytes table record.bytes record.guestCodeDefaultOperandSize =
        refuse .kOperandWidth ∨ record.bytes = [] := by
      by_cases hnil : record.bytes = []
      · exact Or.inr hnil
      · have hdec := hi.decodes
        rw [h16] at hdec ⊢
        refine Or.inl ?_
        simp only [classifyLongModeBytes, hnil, if_false, hdec, canonicalizeGroup1ImmediateAlias,
          h82, ne_eq, not_false_eq_true, or_true, if_true, classifyDecoded, classifyMode16_push hop]
    rcases hverdict with hv | hv
    · simp [hv, refuse] at hcopy
    · simp [hv] at hcopy
  · have hmode : decoderMode record.guestCodeDefaultOperandSize = .legacy32 := by
      simp [decoderMode, h16]
    have hdec := hi.decodes
    rw [hmode] at hdec
    have hvis := visible_not_written hpush hdec him
    simp only [hasExplicitMemoryWrite, hdec, List.any_eq_false]
    intro op hop
    have := hvis op hop
    split <;> simp [this]

theorem emitLongModeCopy_spec {table : Table} {record : AotInstructionRecord} {slot : LongModeSlot}
    (hlen : record.bytes.length ≤ 15) (h : emitLongModeCopy table record = some slot) :
    GapSpec slot.code ∧ 0 < slot.code.bytes.length ∧ slot.code.bytes.length ≤ kMaxLoweredBytes := by
  unfold emitLongModeCopy at h
  simp only at h
  split at h
  · contradiction
  rename_i hnil
  split at h
  · rw [← Option.some.inj h]
    refine ⟨gapSpec_ofBytes _, List.length_pos_iff.mpr hnil, ?_⟩
    simp only [Fragment.ofBytes, kMaxLoweredBytes]
    omega
  · split at h
    · contradiction
    split at h
    · contradiction
    rename_i lowered hlowered
    split at h
    · contradiction
    rw [← Option.some.inj h]
    refine ⟨gapSpec_ofBytes _, ?_, lowerLongModeBytes_length hlowered⟩
    simp only [Fragment.ofBytes]
    omega

theorem longModeSpec_emitLongModeCopySlot {table : Table} (hpush : PushRows table) {host : Host}
    {record : AotInstructionRecord} (hplanned : Planned table record)
    (hlen : record.bytes.length ≤ 15) {slot : LongModeSlot}
    (h : emitLongModeCopySlot table host record = some slot) : LongModeSpec slot.code := by
  unfold emitLongModeCopySlot at h
  simp only at h
  split at h
  swap
  · contradiction
  split at h
  · contradiction
  rename_i copy hcopy
  rw [← Option.some.inj h]
  obtain ⟨hgap, hpos, hle⟩ := emitLongModeCopy_spec hlen hcopy
  unfold kMaxLoweredBytes at hle
  obtain ⟨hmemory, hmemoryLe⟩ := emitLinuxX64NativeMemoryWriteTrace_spec table host record
  obtain ⟨hesp, hespLe⟩ := emitLinuxX64GuestEspTrace_spec host record
  obtain ⟨hstackTrace, hstackLe⟩ := emitLinuxX64StackWriteTrace_spec host record 0
  -- only one of the two long observers is there
  have hboth : record.mnemonic = .push →
      (emitLinuxX64NativeMemoryWriteTrace table host record).code.bytes.length = 0 := by
    intro hm
    simp [emitLinuxX64NativeMemoryWriteTrace, hasExplicitMemoryWrite_push hpush hplanned hm hcopy]
  have hjump : GapSpec { bytes := appendRel32 0xE9
                         fixups := [edgeFixup .kBlockFallthrough record record.next 1] } :=
    gapSpec_edge (by simp [edgeFixup, appendRel32]) (by simp [edgeFixup])
  simp only
  refine GapSpec.longModeSpec ((((hgap.append ?_).append ?_).append hmemory).append hesp) ?_ ?_
  · split_ifs
    · exact hjump
    · exact gapSpec_empty
  · split_ifs
    · exact hstackTrace
    · exact gapSpec_empty
  · simp only [Fragment.append_bytes_length]
    omega
  · simp only [Fragment.append_bytes_length]
    split_ifs with hcs hm hm
    all_goals simp only [appendRel32, List.length_cons, le32_length, List.length_nil]
    · have := hboth hm
      omega
    · omega
    · have := hboth hm
      omega
    · omega

/-! ## The 64-bit back end -/

theorem longModeSpec_emitLongModeControl {table : Table} {host : Host}
    {options : AotCodeCacheBuildOptions} {record : AotInstructionRecord}
    (hlen : record.bytes.length ≤ 15) {slot : LongModeSlot}
    (h : emitLongModeControl table host options record = some slot) : LongModeSpec slot.code := by
  unfold emitLongModeControl at h
  split at h
  · contradiction
  rcases Option.or_eq_some_iff.mp h with h | ⟨-, h⟩
  · obtain ⟨hgap, hpos, hle⟩ := longModeSpec_emitLongModeDirectBranch h
    exact hgap.longModeSpec hpos (by omega)
  · split at h
    · exact longModeSpec_emitLongModeGuardedSegmentLoad h
    · exact longModeSpec_emitLongModeGuardedSegmentPop h
    · split_ifs at h
      exact longModeSpec_emitLongModeGuardedSegmentRead h
    · split_ifs at h
      exact longModeSpec_emitLongModeGuardedSegmentPush h
    · exact longModeSpec_emitLongModeIndirectCall h
    · exact longModeSpec_emitLongModeJumpTable h
    · split_ifs at h
      exact longModeSpec_emitLongModeSegmentOverride h hlen
    · contradiction

/-- The slots of the branches a safe point may stand in front of. -/
theorem then_branch {table : Table} {host : Host} {options : AotCodeCacheBuildOptions}
    {record : AotInstructionRecord} {slot : LongModeSlot}
    (hkind : record.kind = .kDirectJump ∨ record.kind = .kConditionalBranch)
    (h : LongModeSlot.then (emitLongMode16BitLoopNz table record)
      (emitLongModeControl table host options record) = some slot) :
    GapSpec slot.code ∧ 0 < slot.code.bytes.length ∧ slot.code.bytes.length ≤ 169 := by
  have hcontrol : ∀ slot, emitLongModeControl table host options record = some slot →
      emitLongModeDirectBranch table host record = some slot := by
    intro slot h
    unfold emitLongModeControl at h
    rcases hkind with hk | hk <;> simp only [hk] at h <;> split at h <;> simp_all
  cases hloop : emitLongMode16BitLoopNz table record with
  | none =>
    rw [hloop, LongModeSlot.then] at h
    obtain ⟨hgap, hpos, hle⟩ := longModeSpec_emitLongModeDirectBranch (hcontrol slot h)
    exact ⟨hgap, hpos, by omega⟩
  | some a =>
    obtain ⟨hgap, hpos, hle⟩ := longModeSpec_emitLongMode16BitLoopNz hloop
    cases hctl : emitLongModeControl table host options record with
    | none =>
      rw [hloop, hctl, LongModeSlot.then] at h
      · rw [← Option.some.inj h]
        exact ⟨hgap, hpos, by omega⟩
      · simp
    | some b =>
      obtain ⟨hgap', hpos', hle'⟩ := longModeSpec_emitLongModeDirectBranch (hcontrol b hctl)
      rw [hloop, hctl, LongModeSlot.then] at h
      rw [← Option.some.inj h]
      refine ⟨hgap.append hgap', ?_, ?_⟩
      · rw [Fragment.append_bytes_length]
        omega
      · rw [Fragment.append_bytes_length]
        omega

/-- Every slot of the 64-bit back end, for the records of a plan. -/
theorem longModeSpec_emitLongMode {table : Table} (hpush : PushRows table) (host : Host)
    (options : AotCodeCacheBuildOptions) {record : AotInstructionRecord}
    (hplanned : Planned table record) (hlen : record.bytes.length ≤ 15) :
    LongModeSpec (emitLongMode table host options record).code := by
  unfold emitLongMode
  split
  · rename_i slot hslot
    by_cases hbranch : record.kind = .kDirectJump ∨ record.kind = .kConditionalBranch
    · obtain ⟨hgap, hpos, hle⟩ := then_branch hbranch hslot
      split_ifs
      · refine ((gapSpec_emitTimerSafePoint record true).append hgap).longModeSpec ?_ ?_
        · rw [Fragment.append_bytes_length]
          omega
        · rw [Fragment.append_bytes_length]
          simp [emitTimerSafePoint]
          omega
      · exact hgap.longModeSpec hpos (by omega)
    · have hloop : emitLongMode16BitLoopNz table record = none := by
        simp only [not_or] at hbranch
        simp [emitLongMode16BitLoopNz, hbranch.2]
      have hplant : plantLongModeSafePoint options record = false := by
        simp only [not_or] at hbranch
        simp [plantLongModeSafePoint, hbranch.1, hbranch.2]
      rw [hloop, LongModeSlot.then] at hslot
      simp only [hplant, Bool.false_eq_true, if_false]
      exact longModeSpec_emitLongModeControl hlen hslot
  · cases hcopy : emitLongModeCopySlot table host record with
    | none => exact ⟨slotSpec_boundarySlot _ _ (Or.inl rfl), rfl, by simp [boundarySlot]⟩
    | some slot => exact longModeSpec_emitLongModeCopySlot hpush hplanned hlen hcopy

end Repiu.Runtime
