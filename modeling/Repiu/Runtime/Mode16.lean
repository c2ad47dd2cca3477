import Repiu.Runtime.Classification
import Repiu.Runtime.ImageSlots

/-!
# 16-bit code in the 32-bit back end

The 32-bit back end keeps the bytes of a 16-bit code object out of the cache where it
would copy them.  It makes no such difference for the other kinds: a 16-bit record of
theirs gets the slot of 32-bit code wherever the emitter takes it.
-/

namespace Repiu.Runtime

open Repiu.X86

/-- The emitted bytes of an entry. -/
def AotCodeCacheImage.entryBytes (image : AotCodeCacheImage) (e : AotAddressMapEntry) : List Byte :=
  (image.bytes.drop e.cacheOffset).take e.emittedLength

/-- A single trap, or the slot that hands the instruction to the HLE dispatcher. -/
def TrapOrDispatch (image : AotCodeCacheImage) (e : AotAddressMapEntry) (r : AotInstructionRecord) : Prop :=
  image.entryBytes e = [0xCC] ∨ image.entryBytes e = (emitHleDispatchSlot r).bytes

/-- The forms a segment-override slot is made for, read off the record and its 32-bit decoding. -/
def segmentOverrideForm (table : Table) (r : AotInstructionRecord) : Bool :=
  match segmentPrefixByte r.segmentOverrideRegister, decode table .legacy32 r.bytes with
  | some segmentPrefix, some i =>
    let segmentIndex := (r.bytes.take i.prefixCount).findIdx (· = segmentPrefix)
    !decide (i.length ≠ r.bytes.length ∨ i.modrm = none ∨ i.modrmMod = 3) &&
      !decide (i.modrmOffset < i.prefixCount ∨ i.length ≤ i.modrmOffset ∨
        (i.disp.length ≠ 0 ∧ i.disp.length ≠ 1 ∧ i.disp.length ≠ 4)) &&
      !decide (i.prefixCount ≤ segmentIndex) &&
      (segmentOverrideAccess r.bytes i segmentIndex).isSome
  | _, _ => false

/-- The forms a guarded pop is made for. -/
def guardedPopForm (r : AotInstructionRecord) : Bool :=
  !decide (r.bytes = [] ∨ ¬isGuardedSegment r.segmentRegister)

/-- The forms a guarded load is made for. -/
def guardedLoadForm (r : AotInstructionRecord) : Bool :=
  isGuardedSegment r.segmentRegister && (encodeGuardedSegmentLoadSource r).isSome

/-- The forms a guarded read is made for. -/
def guardedReadForm (r : AotInstructionRecord) : Bool :=
  !decide (7 < r.gprRegister ∨ ¬(isGuardedSegment r.segmentRegister ∨ r.segmentRegister = 2))

/-- The forms an indirect guard chain is made for: a near call or jump, and a chain of a length
the slot has room for. -/
def indirectForm (r : AotInstructionRecord) (entryCount : ℕ) : Bool :=
  match r.bytes with
  | 0xFF :: modrm :: rest =>
    !decide (entryCount = 0 ∨ kInlineCacheEntryCount < entryCount ∨
      (regField modrm ≠ 2 ∧ regField modrm ≠ 4)) && (indirectCompare modrm rest).isSome
  | _ => false

/-- The tables a jump table slot is made for. -/
def jumpTableForm (r : AotInstructionRecord) : Bool :=
  !decide (r.tableTargets.length = 0 ∨ 61 < r.tableTargets.length ∨ 7 < r.tableIndexRegister ∨
    r.tableIndexRegister = 4)

/-- Whether a 16-bit record stays out of native code: the kinds with a boundary of their own, and
the others where the slot is switched off or the record does not have the slot's form. -/
def staysOut (table : Table) (options : AotCodeCacheBuildOptions) (r : AotInstructionRecord) : Bool :=
  match r.kind with
  | .kCopy | .kFarReturn | .kHleBoundary | .kPortIo => true
  | .kDirectCall | .kDirectJump | .kGuardedSegmentPush => false
  | .kConditionalBranch => (readConditionOpcode r.mnemonic).isNone
  | .kReturn =>
    match returnPopBytes r.bytes with
    | none => true
    | some popBytes => options.enableDbtReturnMissDispatch && decide (0xFFFF < popBytes)
  | .kSegmentOverrideMem => !segmentOverrideForm table r
  | .kGuardedSegmentPop => !options.enableGuardedSegmentPop || !guardedPopForm r
  | .kGuardedSegmentLoad => !options.enableGuardedSegmentLoad || !guardedLoadForm r
  | .kGuardedSegmentRead => !options.enableGuardedSegmentRead || !guardedReadForm r
  | .kIndirectExit => !indirectForm r options.indirectInlineCacheEntryCount
  | .kJumpTable => !jumpTableForm r

/-! ## Forms -/

section
variable {table : Table} {r : AotInstructionRecord}

theorem emitSegmentOverrideSlot_isNone :
    (emitSegmentOverrideSlot table r).isNone = !segmentOverrideForm table r := by
  unfold emitSegmentOverrideSlot segmentOverrideForm
  cases segmentPrefixByte r.segmentOverrideRegister with
  | none => rfl
  | some segmentPrefix =>
    simp only [Option.bind_eq_bind, Option.bind_some, Option.bind_none]
    cases decode table .legacy32 r.bytes with
    | none => rfl
    | some i =>
      rw [Option.bind_some]
      dsimp only
      by_cases hform : i.length ≠ r.bytes.length ∨ i.modrm = none ∨ i.modrmMod = 3
      · rw [if_pos hform, decide_eq_true hform]
        rfl
      by_cases hoffset : i.modrmOffset < i.prefixCount ∨ i.length ≤ i.modrmOffset ∨
          (i.disp.length ≠ 0 ∧ i.disp.length ≠ 1 ∧ i.disp.length ≠ 4)
      · rw [if_neg hform, if_pos hoffset, decide_eq_true hoffset, decide_eq_false hform]
        rfl
      by_cases hindex : i.prefixCount ≤ (r.bytes.take i.prefixCount).findIdx (· = segmentPrefix)
      · rw [if_neg hform, if_neg hoffset, if_pos hindex, decide_eq_true hindex,
          decide_eq_false hoffset, decide_eq_false hform]
        rfl
      rw [if_neg hform, if_neg hoffset, if_neg hindex, decide_eq_false hindex,
        decide_eq_false hoffset, decide_eq_false hform]
      cases segmentOverrideAccess r.bytes i
        ((r.bytes.take i.prefixCount).findIdx (· = segmentPrefix)) <;> rfl

theorem emitGuardedSegmentPopSlot_isNone :
    (emitGuardedSegmentPopSlot r).isNone = !guardedPopForm r := by
  unfold emitGuardedSegmentPopSlot guardedPopForm
  by_cases h : r.bytes = [] ∨ ¬isGuardedSegment r.segmentRegister
  · rw [if_pos h, decide_eq_true h]
    rfl
  · rw [if_neg h, decide_eq_false h]
    rfl

theorem emitGuardedSegmentLoadSlot_isNone :
    (emitGuardedSegmentLoadSlot r).isNone = !guardedLoadForm r := by
  unfold emitGuardedSegmentLoadSlot guardedLoadForm
  cases isGuardedSegment r.segmentRegister with
  | false => rfl
  | true => cases encodeGuardedSegmentLoadSource r <;> rfl

theorem emitGuardedSegmentReadSlot_isNone :
    (emitGuardedSegmentReadSlot r).isNone = !guardedReadForm r := by
  unfold emitGuardedSegmentReadSlot guardedReadForm
  by_cases h : 7 < r.gprRegister ∨ ¬(isGuardedSegment r.segmentRegister ∨ r.segmentRegister = 2)
  · rw [if_pos h, decide_eq_true h]
    rfl
  · rw [if_neg h, decide_eq_false h]
    rfl

theorem emitIndirectInlineCacheSlot_isNone (entryCount : ℕ) :
    (emitIndirectInlineCacheSlot r entryCount).isNone = !indirectForm r entryCount := by
  by_cases hform : ∃ modrm rest, r.bytes = 0xFF :: modrm :: rest
  · obtain ⟨modrm, rest, hbytes⟩ := hform
    unfold emitIndirectInlineCacheSlot indirectForm
    rw [hbytes]
    show (if entryCount = 0 ∨ kInlineCacheEntryCount < entryCount ∨
        (regField modrm ≠ 2 ∧ regField modrm ≠ 4) then none else _ : Option Fragment).isNone =
      !(!decide (entryCount = 0 ∨ kInlineCacheEntryCount < entryCount ∨
        (regField modrm ≠ 2 ∧ regField modrm ≠ 4)) && (indirectCompare modrm rest).isSome)
    by_cases h : entryCount = 0 ∨ kInlineCacheEntryCount < entryCount ∨
        (regField modrm ≠ 2 ∧ regField modrm ≠ 4)
    · rw [if_pos h, decide_eq_true h]
      rfl
    · rw [if_neg h, decide_eq_false h]
      cases indirectCompare modrm rest <;> rfl
  · -- no near branch at all
    have hslot : emitIndirectInlineCacheSlot r entryCount = none := by
      unfold emitIndirectInlineCacheSlot
      split
      · exact absurd ⟨_, _, ‹_›⟩ hform
      · rfl
    have hfalse : indirectForm r entryCount = false := by
      unfold indirectForm
      split
      · exact absurd ⟨_, _, ‹_›⟩ hform
      · rfl
    rw [hslot, hfalse]
    rfl

theorem emitJumpTableSlot_isNone : (emitJumpTableSlot r).isNone = !jumpTableForm r := by
  unfold emitJumpTableSlot jumpTableForm
  dsimp only
  by_cases h : r.tableTargets.length = 0 ∨ 61 < r.tableTargets.length ∨ 7 < r.tableIndexRegister ∨
      r.tableIndexRegister = 4
  · rw [if_pos h, decide_eq_true h]
    rfl
  · rw [if_neg h, decide_eq_false h]
    rfl

/-- The return slot is refused exactly where the form or the number of bytes is. -/
theorem emitReturnInlineCacheSlot_isNone (dispatch direct : Bool) :
    (emitReturnInlineCacheSlot r dispatch direct).isNone =
      (match returnPopBytes r.bytes with
        | none => true
        | some popBytes => dispatch && decide (0xFFFF < popBytes)) := by
  unfold emitReturnInlineCacheSlot
  cases returnPopBytes r.bytes with
  | none => rfl
  | some popBytes =>
    dsimp only
    cases dispatch with
    | false => rfl
    | true =>
      by_cases hpop : 0xFFFF < popBytes
      · rw [if_pos ⟨rfl, hpop⟩, decide_eq_true hpop]
        rfl
      · rw [if_neg (fun h => hpop h.2), decide_eq_false hpop]
        rfl

end

/-! ## First bytes -/

/-- A slot that runs natively: it starts with neither a trap nor the dispatcher's push. -/
def StartsNative (bytes : List Byte) : Prop :=
  bytes.getD 0 0 ≠ 0xCC ∧ (bytes.getD 0 0 = 0x68 → bytes.length = 10)

section
variable {table : Table} {r : AotInstructionRecord} {f : Fragment}

theorem startsNative_of_head {bytes rest : List Byte} (b : Byte) (h : bytes = b :: rest)
    (htrap : b ≠ 0xCC) (hpush : b ≠ 0x68) : StartsNative bytes := by
  rw [h]
  exact ⟨htrap, fun hb => absurd hb hpush⟩

theorem startsNative_safePoint {plant : Bool} (b : Byte) {rest : List Byte} (htrap : b ≠ 0xCC)
    (hpush : b ≠ 0x68) (hf : f.bytes = b :: rest) :
    StartsNative ((safePointIf plant r).append f).bytes := by
  cases plant with
  | true => exact startsNative_of_head 0x9C rfl (by decide) (by decide)
  | false =>
    have hbytes : ((safePointIf false r).append f).bytes = b :: rest := by
      rw [Fragment.append_bytes, hf]
      rfl
    exact startsNative_of_head b hbytes htrap hpush

theorem startsNative_emitReturnInlineCacheSlot {dispatch direct : Bool}
    (h : emitReturnInlineCacheSlot r dispatch direct = some f) : StartsNative f.bytes := by
  unfold emitReturnInlineCacheSlot at h
  split at h
  · contradiction
  · split_ifs at h
    all_goals
      rw [← Option.some.inj h]
      exact startsNative_of_head 0x9C rfl (by decide) (by decide)

theorem startsNative_emitIndirectInlineCacheSlot {count : ℕ}
    (h : emitIndirectInlineCacheSlot r count = some f) : StartsNative f.bytes := by
  unfold emitIndirectInlineCacheSlot at h
  split at h
  · dsimp only at h
    split_ifs at h
    split at h
    · contradiction
    · rw [← Option.some.inj h]
      exact startsNative_of_head 0x9C rfl (by decide) (by decide)
  · contradiction

theorem startsNative_emitJumpTableSlot (h : emitJumpTableSlot r = some f) : StartsNative f.bytes := by
  unfold emitJumpTableSlot at h
  dsimp only at h
  split_ifs at h
  rw [← Option.some.inj h]
  exact startsNative_of_head 0xFF rfl (by decide) (by decide)

theorem startsNative_emitSegmentOverrideSlot (h : emitSegmentOverrideSlot table r = some f) :
    StartsNative f.bytes := by
  obtain ⟨_, _, _, _, -, -, -, -, rfl⟩ := emitSegmentOverrideSlot_eq_some h
  exact startsNative_of_head 0x9C rfl (by decide) (by decide)

theorem startsNative_guardedSegmentBody (source advance : List Byte) (distance : Byte) :
    StartsNative (guardedSegmentBody source distance advance).bytes := by
  have hhead : (guardedSegmentBody source distance advance).bytes.getD 0 0 = 0x9C := by
    unfold guardedSegmentBody
    simp only [List.append_assoc, List.cons_append]
    rfl
  refine ⟨by rw [hhead]; decide, fun h => ?_⟩
  rw [hhead] at h
  exact absurd h (by decide)

theorem startsNative_emitGuardedSegmentPopSlot (h : emitGuardedSegmentPopSlot r = some f) :
    StartsNative f.bytes := by
  unfold emitGuardedSegmentPopSlot at h
  split_ifs at h
  rw [← Option.some.inj h]
  exact startsNative_guardedSegmentBody _ _ _

theorem startsNative_emitGuardedSegmentLoadSlot (h : emitGuardedSegmentLoadSlot r = some f) :
    StartsNative f.bytes := by
  unfold emitGuardedSegmentLoadSlot at h
  split_ifs at h
  split at h
  · contradiction
  · rw [← Option.some.inj h]
    exact startsNative_guardedSegmentBody _ _ _

theorem startsNative_emitGuardedSegmentReadSlot (h : emitGuardedSegmentReadSlot r = some f) :
    StartsNative f.bytes := by
  unfold emitGuardedSegmentReadSlot at h
  split_ifs at h
  rw [← Option.some.inj h]
  exact startsNative_of_head 0x66 rfl (by decide) (by decide)

end

/-! ## Slots of 16-bit records -/

section
variable {table : Table} {options : AotCodeCacheBuildOptions} {r : AotInstructionRecord}

/-- A slot that the emitter gave, or the boundary. -/
theorem slotOr_cases (r : AotInstructionRecord) (kind : AotFixupKind) (enabled : Bool) (slot : Option Fragment) :
    (slotOr kind r enabled slot = boundarySlot kind r ∧ (!enabled || slot.isNone) = true) ∨
      (∃ f, slot = some f ∧ slotOr kind r enabled slot = f ∧ (!enabled || slot.isNone) = false) := by
  unfold slotOr
  cases enabled with
  | false => exact Or.inl ⟨rfl, rfl⟩
  | true =>
    cases slot with
    | none => exact Or.inl ⟨rfl, rfl⟩
    | some f => exact Or.inr ⟨f, rfl, rfl, rfl⟩

/-- A slot that is a trap or a dispatch, and in which resolution writes nothing. -/
def Inert (r : AotInstructionRecord) (f : Fragment) : Prop :=
  (f.bytes = [0xCC] ∨ f.bytes = (emitHleDispatchSlot r).bytes) ∧
    ∀ y ∈ f.fixups, isExternalFixup f.bytes y = true

theorem inert_boundarySlot {kind : AotFixupKind} (hkind : kind = .kHleBoundary ∨ kind = .kIndirectExit) :
    Inert r (boundarySlot kind r) := by
  refine ⟨Or.inl rfl, ?_⟩
  intro y hy
  rw [boundarySlot, List.mem_singleton] at hy
  rw [hy]
  rcases hkind with rfl | rfl <;> rfl

theorem inert_slotOr_hle {enabled : Bool} (hslot : Inert r (emitHleDispatchSlot r)) :
    Inert r (slotOr .kHleBoundary r enabled (some (emitHleDispatchSlot r))) := by
  cases enabled with
  | false => exact inert_boundarySlot (Or.inl rfl)
  | true => exact hslot

theorem inert_emitHleDispatchSlot : Inert r (emitHleDispatchSlot r) := by
  refine ⟨Or.inr rfl, ?_⟩
  intro y hy
  rw [emitHleDispatchSlot, List.mem_singleton] at hy
  rw [hy]
  rfl

/-- A slot with a switch: native exactly where it is on and the emitter takes the record. -/
theorem slotOr_dichotomy {kind : AotFixupKind} (enabled : Bool) {slot : Option Fragment}
    (hkind : kind = .kHleBoundary ∨ kind = .kIndirectExit)
    (hnative : ∀ f, slot = some f → StartsNative f.bytes) :
    if (!enabled || slot.isNone) = true then Inert r (slotOr kind r enabled slot)
    else StartsNative (slotOr kind r enabled slot).bytes := by
  rcases slotOr_cases r kind enabled slot with ⟨heq, hout⟩ | ⟨f, hf, heq, hout⟩
  · rw [if_pos hout, heq]
    exact inert_boundarySlot hkind
  · rw [if_neg (by rw [hout]; decide), heq]
    exact hnative f hf

/-- What a 16-bit record gets: nothing native where it stays out, and native code elsewhere. -/
theorem emitLegacy_dichotomy (h16 : r.guestCodeDefaultOperandSize = .k16)
    (hpush : r.kind = .kGuardedSegmentPush → r.bytes ∈ segmentStackBytes) :
    if staysOut table options r = true then Inert r (emitLegacy table options r)
    else StartsNative (emitLegacy table options r).bytes := by
  unfold staysOut emitLegacy
  cases hkind : r.kind with
  | kCopy =>
    rw [if_pos rfl]
    dsimp only
    rw [if_pos h16]
    exact inert_boundarySlot (Or.inl rfl)
  | kFarReturn =>
    rw [if_pos rfl]
    exact inert_boundarySlot (Or.inl rfl)
  | kHleBoundary =>
    rw [if_pos rfl]
    exact inert_slotOr_hle inert_emitHleDispatchSlot
  | kPortIo =>
    rw [if_pos rfl]
    exact inert_slotOr_hle inert_emitHleDispatchSlot
  | kDirectCall =>
    rw [if_neg Bool.false_ne_true]
    refine ⟨?_, fun _ => ?_⟩
    · show (0x68 : Byte) ≠ 0xCC
      decide
    · simp [emitDirectCall, appendRel32]
  | kDirectJump =>
    rw [if_neg Bool.false_ne_true]
    exact startsNative_safePoint 0xE9 (by decide) (by decide) rfl
  | kGuardedSegmentPush =>
    rw [if_neg Bool.false_ne_true]
    have hmem := hpush hkind
    show StartsNative r.bytes
    generalize r.bytes = bytes at hmem
    simp only [segmentStackBytes, List.mem_cons, List.not_mem_nil, or_false] at hmem
    rcases hmem with rfl | rfl | rfl | rfl | rfl | rfl | rfl | rfl
    all_goals exact startsNative_of_head _ rfl (by decide) (by decide)
  | kConditionalBranch =>
    dsimp only
    unfold emitConditionalBranch
    cases readConditionOpcode r.mnemonic with
    | none =>
      rw [if_pos (show (none : Option Byte).isNone = true from rfl)]
      refine ⟨Or.inl rfl, ?_⟩
      intro y hy
      rw [List.mem_singleton] at hy
      rw [hy]
      rfl
    | some opcode =>
      rw [if_neg (show ¬(some opcode).isNone = true from Bool.false_ne_true)]
      exact startsNative_safePoint 0x0F (by decide) (by decide) rfl
  | kReturn =>
    dsimp only
    rw [← emitReturnInlineCacheSlot_isNone _ options.enableDirectReturnTable]
    exact slotOr_dichotomy true (Or.inr rfl) fun f hf => startsNative_emitReturnInlineCacheSlot hf
  | kSegmentOverrideMem =>
    dsimp only
    rw [← emitSegmentOverrideSlot_isNone]
    exact slotOr_dichotomy true (Or.inl rfl) fun f hf => startsNative_emitSegmentOverrideSlot hf
  | kGuardedSegmentPop =>
    dsimp only
    rw [← emitGuardedSegmentPopSlot_isNone]
    exact slotOr_dichotomy _ (Or.inl rfl) fun f hf => startsNative_emitGuardedSegmentPopSlot hf
  | kGuardedSegmentLoad =>
    dsimp only
    rw [← emitGuardedSegmentLoadSlot_isNone]
    exact slotOr_dichotomy _ (Or.inl rfl) fun f hf => startsNative_emitGuardedSegmentLoadSlot hf
  | kGuardedSegmentRead =>
    dsimp only
    rw [← emitGuardedSegmentReadSlot_isNone]
    exact slotOr_dichotomy _ (Or.inl rfl) fun f hf => startsNative_emitGuardedSegmentReadSlot hf
  | kIndirectExit =>
    dsimp only
    rw [← emitIndirectInlineCacheSlot_isNone]
    exact slotOr_dichotomy true (Or.inr rfl) fun f hf => startsNative_emitIndirectInlineCacheSlot hf
  | kJumpTable =>
    dsimp only
    rw [← emitJumpTableSlot_isNone]
    exact slotOr_dichotomy true (Or.inr rfl) fun f hf => startsNative_emitJumpTableSlot hf

end

/-! ## Planned pushes -/

/-- Only the four segment pushes are planned as guarded pushes. -/
theorem classifyPlain_push {input : PlannerInput} {guards : Guards} {block : List AotInstructionRecord}
    {i : Instruction} {codeMode : GuestCodeDefaultOperandSize} {record : AotInstructionRecord}
    (h : (classifyPlain input guards block i codeMode record).record.kind = .kGuardedSegmentPush) :
    (readGuardedSegmentPushRegister i record.bytes).isSome := by
  unfold classifyPlain at h
  dsimp only at h
  split at h
  · cases h
  split at h
  · cases h
  split at h
  · cases h
  split at h
  · cases h
  split at h
  · rename_i hpush
    rw [hpush]
    rfl
  · split_ifs at h
    all_goals first
      | cases h
      | (have hbranch : (classifyBranch input guards block i codeMode record).record.kind.isBranch =
            true := classifyBranch_isBranch
         rw [h] at hbranch
         cases hbranch)

theorem pushBytes_invariant (input : PlannerInput) :
    RecordInvariant input fun r => r.kind = .kGuardedSegmentPush → r.bytes ∈ segmentStackBytes where
  excluded := by
    intro address hkind
    cases hkind
  classified := by
    intro guards block address codeMode i bytes h hkind
    have hbytes := bytes_decodedRecord address h
    rw [(sameInstruction_classifyInstruction input guards block i codeMode _).bytes, hbytes]
    rcases @classifyInstruction_cases input guards block i codeMode
      (decodedRecord address codeMode i bytes) rfl with
      ⟨-, hjump, -⟩ | ⟨-, guards', record', hrecord, heq⟩
    · rw [hjump] at hkind
      cases hkind
    · rw [heq] at hkind
      have hpush := classifyPlain_push hkind
      rw [hrecord, hbytes] at hpush
      obtain ⟨s, hs⟩ := Option.isSome_iff_exists.mp hpush
      exact readGuardedSegmentPushRegister_bytes hs
  retargeted := fun _ _ h _ => h
  reclassified := by
    intro record targets index _ _ _ _ hkind
    cases hkind

/-! ## Entries of 16-bit records -/

section
variable {image : AotCodeCacheImage} {e : AotAddressMapEntry} {r : AotInstructionRecord} {f : Fragment}

theorem entryBytes_length (hin : e.cacheOffset + e.emittedLength ≤ image.bytes.length) :
    (image.entryBytes e).length = e.emittedLength := by
  rw [AotCodeCacheImage.entryBytes, List.length_take, List.length_drop]
  omega

theorem entryBytes_getD {k : ℕ} (hk : k < e.emittedLength) :
    (image.entryBytes e).getD k 0 = image.bytes.getD (e.cacheOffset + k) 0 := by
  simp only [AotCodeCacheImage.entryBytes, List.getD_eq_getElem?_getD, List.getElem?_take,
    List.getElem?_drop, if_pos hk]

/-- An inert slot is a trap or a dispatch in the image as well. -/
theorem trapOrDispatch_of_inert (hin : e.cacheOffset + e.emittedLength ≤ image.bytes.length)
    (hlength : e.emittedLength = f.bytes.length)
    (hbytes : ∀ k < e.emittedLength,
      (∀ y ∈ f.fixups, isExternalFixup f.bytes y = false →
        k < y.cachePatchOffset ∨ y.cachePatchOffset + 4 ≤ k) →
      image.bytes.getD (e.cacheOffset + k) 0 = f.bytes.getD k 0)
    (hinert : Inert r f) : TrapOrDispatch image e r := by
  have hslot : image.entryBytes e = f.bytes := by
    apply List.ext_getElem ((entryBytes_length hin).trans hlength)
    intro k hk hk'
    have hk : k < e.emittedLength := by rwa [entryBytes_length hin] at hk
    have hbyte := @entryBytes_getD image e _ hk
    rw [hbytes k hk fun y hy hopen => by rw [hinert.2 y hy] at hopen; cases hopen] at hbyte
    rwa [List.getD_eq_getElem _ _ ‹_›, List.getD_eq_getElem _ _ ‹_›] at hbyte
  unfold TrapOrDispatch
  rw [hslot]
  exact hinert.1

/-- A native slot is neither in the image. -/
theorem not_trapOrDispatch_of_native (hin : e.cacheOffset + e.emittedLength ≤ image.bytes.length)
    (hlength : e.emittedLength = f.bytes.length) (hpos : 0 < e.emittedLength)
    (hfirst : image.bytes.getD e.cacheOffset 0 = f.bytes.getD 0 0) (hnative : StartsNative f.bytes) :
    ¬TrapOrDispatch image e r := by
  have hbyte := @entryBytes_getD image e _ hpos
  rw [Nat.add_zero, hfirst] at hbyte
  rintro (htrap | hdispatch)
  · rw [htrap] at hbyte
    exact hnative.1 hbyte.symm
  · have hten : f.bytes.length = 10 := hnative.2 (by rw [← hbyte, hdispatch]; rfl)
    have hlen := entryBytes_length hin
    rw [hdispatch, hlength, hten] at hlen
    exact absurd hlen (by simp [emitHleDispatchSlot])

end

/-- The entries of a 32-bit image that stand for 16-bit code: such an entry is a trap or hands its
instruction to the dispatcher exactly if its record stays out. -/
theorem mode16_slots {input : BuildInput} {fuel : ℕ} {source : RelocatedRuntimeImage} {entry : Word}
    {excluded : List AotExcludedGuestRange} {plan : AotTranslationPlan} {image : AotCodeCacheImage}
    (hrows : PushRows input.table)
    (hplan : buildAotTranslationPlanFromEntry input.table fuel source entry excluded = some plan)
    (hmode : input.options.enableLongModeEmission = false)
    (h : buildAotCodeCacheImage input plan = some image) :
    ∀ e ∈ image.addressMap, ∃ r, (plan.records.find? fun r => r.guestAddress = e.guestAddress) = some r ∧
      (r.guestCodeDefaultOperandSize = .k16 →
        (TrapOrDispatch image e r ↔ staysOut input.table input.options r = true)) := by
  have hemittable := emittablePlan_of_planned hrows hplan
  intro e he
  obtain ⟨hin, _, hfind', _, hpos, _⟩ := (addressMap_wellFormed hemittable h).2 e he
  obtain ⟨r, hfind, hlength, hbytes⟩ := imageSlot_getD hmode hemittable h he
  refine ⟨r, hfind, fun h16 => ?_⟩
  obtain ⟨block, hblock, hmem⟩ : ∃ block ∈ plan.blocks, r ∈ block.instructions := by
    have := List.mem_of_find?_eq_some hfind
    simpa [AotTranslationPlan.records, List.mem_flatten] using this
  have hpush := plan_records (pushBytes_invariant _) hplan block hblock r hmem
  have hslot := @emitLegacy_dichotomy input.table input.options r h16 hpush
  constructor
  · intro hout
    by_contra hstays
    rw [if_neg hstays] at hslot
    have hspec := (slotSpec_emitSlot (hemittable.records block hblock r hmem)).1
    rw [emitSlot, if_neg (by rw [hmode]; decide)] at hspec
    have hfirst := hbytes 0 hpos fun y hy hopen => Or.inl (hspec.fixups.positive y hy hopen)
    exact not_trapOrDispatch_of_native hin hlength hpos hfirst hslot hout
  · intro hstays
    rw [if_pos hstays] at hslot
    exact trapOrDispatch_of_inert hin hlength hbytes hslot

/-- A 16-bit guest at `0x10000`: `mov ax, imm16` and a jump back to it. -/
def mode16Source : RelocatedRuntimeImage :=
  { valid := true
    objects :=
      [{ relocatedBaseAddress := 0x10000
         virtualSize := 24
         flags := 4
         bytes := [0xB8, 0x00, 0x00, 0xE9, 0xFA, 0xFF] ++ List.replicate 18 0 }]
    codeModeRanges := [] }

/-- The plan of the 16-bit guest. -/
def mode16Plan : AotTranslationPlan :=
  (buildAotTranslationPlanFromEntry sampleTable 8 mode16Source 0x10000 []).get (by decide +kernel)

/-- Its 32-bit image: a trap, the edge behind it and a native jump. -/
def mode16Image : AotCodeCacheImage :=
  (buildAotCodeCacheImage ⟨sampleTable, {}, {}⟩ mode16Plan).get (by decide +kernel)

theorem planned_mode16Plan :
    buildAotTranslationPlanFromEntry sampleTable 8 mode16Source 0x10000 [] = some mode16Plan :=
  (Option.some_get _).symm

theorem built_mode16Image :
    buildAotCodeCacheImage ⟨sampleTable, {}, {}⟩ mode16Plan = some mode16Image :=
  (Option.some_get _).symm

attribute [irreducible] mode16Plan mode16Image

/-- The entries of the 16-bit guest. -/
theorem mode16_slots_guest :
    mode16Image.bytes = [0xCC, 0xE9, 0xFA, 0xFF, 0xFF, 0xFF] ∧ ∀ e ∈ mode16Image.addressMap,
      ∃ r, (mode16Plan.records.find? fun r => r.guestAddress = e.guestAddress) = some r ∧
        (r.guestCodeDefaultOperandSize = .k16 →
          (TrapOrDispatch mode16Image e r ↔ staysOut sampleTable {} r = true)) :=
  ⟨by decide +kernel, @mode16_slots ⟨sampleTable, {}, {}⟩ _ _ _ _ _ _ pushRows_sampleTable
    planned_mode16Plan rfl built_mode16Image⟩

/-- The jump of the 16-bit guest runs as a 32-bit jump. -/
theorem mode16_jump_native :
    ∃ e ∈ mode16Image.addressMap, ∃ r ∈ mode16Plan.records, r.guestAddress = e.guestAddress ∧
      r.guestCodeDefaultOperandSize = .k16 ∧ r.kind = .kDirectJump ∧ ¬TrapOrDispatch mode16Image e r := by
  have hentry : ⟨0x10003, 1, 3, 5⟩ ∈ mode16Image.addressMap := by decide +kernel
  have hbytes : mode16Image.entryBytes ⟨0x10003, 1, 3, 5⟩ = [0xE9, 0xFA, 0xFF, 0xFF, 0xFF] := by
    decide +kernel
  have hrecord : (mode16Plan.records.any fun r => decide (r.guestAddress = 0x10003 ∧
      r.guestCodeDefaultOperandSize = .k16 ∧ r.kind = .kDirectJump)) = true := by
    decide +kernel
  obtain ⟨r, hr, heq⟩ := List.any_eq_true.mp hrecord
  obtain ⟨haddress, h16, hkind⟩ := of_decide_eq_true heq
  refine ⟨_, hentry, r, hr, haddress, h16, hkind, ?_⟩
  unfold TrapOrDispatch
  rw [hbytes]
  rintro (htrap | hdispatch)
  · revert htrap
    decide
  · have := congrArg List.length hdispatch
    simp [emitHleDispatchSlot] at this

end Repiu.Runtime
