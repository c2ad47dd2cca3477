import Repiu.Runtime.Resolution

/-!
# Site offsets

The offsets of the sites of an image lie in its bytes.  Guard chains have a shape of
their own (`ChainIn`); here are the other kinds, slot by slot and then for a whole
image.
-/

namespace Repiu.Runtime

open Repiu.X86

/-! ## The offsets of a site -/

/-- The offsets of a site: those every slot of its kind has, and those that are zero where the
slot lacks the operand. -/
structure SiteOffsets where
  required : List ℕ
  optional : List ℕ := []

namespace SiteOffsets

/-- Every offset. -/
def all (s : SiteOffsets) : List ℕ := s.required ++ s.optional

/-- Move the offsets; a missing operand stays missing. -/
def move (base : ℕ) (s : SiteOffsets) : SiteOffsets :=
  ⟨s.required.map (base + ·), s.optional.map (moveOptional base)⟩

/-- The offsets lie in code of the given size. -/
def In (size : ℕ) (s : SiteOffsets) : Prop := ∀ o ∈ s.all, o < size

/-- The offsets `s'` are those of `s` behind `base` bytes, or in front of that. -/
def Behind (base : ℕ) (s s' : SiteOffsets) : Prop := ∀ o' ∈ s'.all, ∃ o ∈ s.all, o' ≤ base + o

theorem moveOptional_le (base offset : ℕ) : moveOptional base offset ≤ base + offset := by
  unfold moveOptional
  split_ifs <;> omega

theorem behind_move (base : ℕ) (s : SiteOffsets) : Behind base s (s.move base) := by
  intro o' ho'
  rcases List.mem_append.mp ho' with h | h
  · obtain ⟨o, ho, rfl⟩ := List.mem_map.mp h
    exact ⟨o, List.mem_append_left _ ho, le_rfl⟩
  · obtain ⟨o, ho, rfl⟩ := List.mem_map.mp h
    exact ⟨o, List.mem_append_right _ ho, moveOptional_le base o⟩

theorem In.behind {size base : ℕ} {s s' : SiteOffsets} (h : s.In size) (hb : Behind base s s') :
    s'.In (base + size) := by
  intro o' ho'
  obtain ⟨o, ho, hle⟩ := hb o' ho'
  have := h o ho
  omega

theorem In.mono {size size' : ℕ} {s : SiteOffsets} (h : s.In size) (hle : size ≤ size') : s.In size' :=
  fun o ho => (h o ho).trans_le hle

end SiteOffsets

/-- The offsets of a map entry. -/
def AotAddressMapEntry.offsets (e : AotAddressMapEntry) : SiteOffsets := ⟨[e.cacheOffset], []⟩

/-- The offsets of a fixup. -/
def AotCodeCacheFixup.offsets (f : AotCodeCacheFixup) : SiteOffsets := ⟨[f.cachePatchOffset], []⟩

/-- The offsets of a guard. -/
def AotInlineCacheEntry.offsets (e : AotInlineCacheEntry) : List ℕ :=
  [e.compareOffset, e.targetImmediateOffset, e.guardOffset, e.jumpDisplacementOffset]

/-- The offsets of an inline-cache site. -/
def AotIndirectInlineCacheSite.offsets (s : AotIndirectInlineCacheSite) : SiteOffsets :=
  ⟨[s.cacheOffset, s.missCacheOffset, s.targetImmediateOffset, s.guardOffset,
      s.jumpDisplacementOffset] ++ s.entries.flatMap AotInlineCacheEntry.offsets,
    [s.missProbeCacheOffset]⟩

/-- The offsets of a return-dispatch site. -/
def AotDbtReturnDispatchSite.offsets (s : AotDbtReturnDispatchSite) : SiteOffsets :=
  ⟨[s.missCacheOffset, s.missAddressImmediateOffset, s.thunkDisplacementOffset, s.fallbackCacheOffset,
    s.successCacheOffset], []⟩

/-- The offsets of an HLE-dispatch site. -/
def AotDbtHleDispatchSite.offsets (s : AotDbtHleDispatchSite) : SiteOffsets :=
  ⟨[s.dispatchCacheOffset, s.dispatchAddressImmediateOffset, s.thunkDisplacementOffset,
    s.fallbackCacheOffset, s.successCacheOffset], []⟩

/-- The offsets of a direct-edge dispatch site. -/
def AotDbtDirectEdgeDispatchSite.offsets (s : AotDbtDirectEdgeDispatchSite) : SiteOffsets :=
  ⟨[s.dispatchCacheOffset, s.dispatchAddressImmediateOffset, s.thunkDisplacementOffset,
    s.fallbackCacheOffset, s.successCacheOffset], []⟩

/-- The offsets of a jump-table site. -/
def AotJumpTableSite.offsets (s : AotJumpTableSite) : SiteOffsets :=
  ⟨[s.cacheOffset, s.displacementPatchOffset, s.fallbackOffset, s.tableCacheOffset], []⟩

/-- The offsets of a segment-override site. -/
def AotSegmentOverrideSite.offsets (s : AotSegmentOverrideSite) : SiteOffsets :=
  ⟨[s.cacheOffset, s.displacementOffset, s.guardAddressOffset, s.guardSelectorOffset], []⟩

/-- The offsets of a guarded pop site. -/
def AotGuardedSegmentPopSite.offsets (s : AotGuardedSegmentPopSite) : SiteOffsets :=
  ⟨[s.cacheOffset, s.shadowAddressOffset, s.successCounterAddressOffset,
      s.fallbackCounterAddressOffset, s.fallbackOffset],
    [s.pair0AddressOffset, s.pair1AddressOffset, s.shadowStoreOffset]⟩

/-- The offsets of a guarded load site. -/
def AotGuardedSegmentLoadSite.offsets (s : AotGuardedSegmentLoadSite) : SiteOffsets :=
  ⟨[s.cacheOffset, s.shadowAddressOffset, s.successCounterAddressOffset,
      s.fallbackCounterAddressOffset, s.fallbackOffset],
    [s.pair0AddressOffset, s.pair1AddressOffset, s.shadowStoreOffset]⟩

/-- The offsets of a guarded read site. -/
def AotGuardedSegmentReadSite.offsets (s : AotGuardedSegmentReadSite) : SiteOffsets :=
  ⟨[s.cacheOffset, s.shadowAddressOffset, s.loadShadowAddressOffset, s.fallbackOffset], []⟩

/-- The offsets of a timer safe point. -/
def AotTimerSafePointSite.offsets (s : AotTimerSafePointSite) : SiteOffsets :=
  ⟨[s.cacheOffset, s.requestAddressOffset, s.breakpointOffset], []⟩

/-- The offsets of a direct-return probe. -/
def AotDirectReturnProbeSite.offsets (s : AotDirectReturnProbeSite) : SiteOffsets :=
  ⟨[s.cacheOffset, s.maskImmediateOffset, s.keyAddressOffset, s.targetAddressOffset,
    s.hitCounterAddressOffset], []⟩

/-! ## The offsets of a fragment -/

namespace Fragment

/-- The offsets of the fixups and sites of a fragment, its guard chains left out. -/
def siteOffsets (f : Fragment) : List SiteOffsets :=
  f.fixups.map AotCodeCacheFixup.offsets ++
  f.dbtReturnDispatchSites.map AotDbtReturnDispatchSite.offsets ++
  f.dbtHleDispatchSites.map AotDbtHleDispatchSite.offsets ++
  f.dbtDirectEdgeDispatchSites.map AotDbtDirectEdgeDispatchSite.offsets ++
  f.jumpTableSites.map AotJumpTableSite.offsets ++
  f.guardedSegmentPopSites.map AotGuardedSegmentPopSite.offsets ++
  f.guardedSegmentReadSites.map AotGuardedSegmentReadSite.offsets ++
  f.guardedSegmentLoadSites.map AotGuardedSegmentLoadSite.offsets ++
  f.segmentOverrideSites.map AotSegmentOverrideSite.offsets ++
  f.timerSafePointSites.map AotTimerSafePointSite.offsets ++
  f.directReturnProbeSites.map AotDirectReturnProbeSite.offsets

/-- Every offset lies in the bytes. -/
def OffsetsIn (f : Fragment) : Prop := ∀ s ∈ f.siteOffsets, s.In f.bytes.length

end Fragment

section Append

variable {base : ℕ}

theorem AotGuardedSegmentPopSite.offsets_move (s : AotGuardedSegmentPopSite) :
    SiteOffsets.Behind base s.offsets (s.move base).offsets := by
  intro o' ho'
  simp only [offsets, AotGuardedSegmentPopSite.move, SiteOffsets.all, List.cons_append, List.nil_append,
    List.mem_cons, List.not_mem_nil, or_false, exists_eq_or_imp, exists_eq_left] at ho' ⊢
  have h₁ := SiteOffsets.moveOptional_le base s.successCounterAddressOffset
  have h₂ := SiteOffsets.moveOptional_le base s.fallbackCounterAddressOffset
  have h₃ := SiteOffsets.moveOptional_le base s.pair0AddressOffset
  have h₄ := SiteOffsets.moveOptional_le base s.pair1AddressOffset
  have h₅ := SiteOffsets.moveOptional_le base s.shadowStoreOffset
  omega

theorem AotGuardedSegmentLoadSite.offsets_move (s : AotGuardedSegmentLoadSite) :
    SiteOffsets.Behind base s.offsets (s.move base).offsets := by
  intro o' ho'
  simp only [offsets, AotGuardedSegmentLoadSite.move, SiteOffsets.all, List.cons_append, List.nil_append,
    List.mem_cons, List.not_mem_nil, or_false, exists_eq_or_imp, exists_eq_left] at ho' ⊢
  have h₁ := SiteOffsets.moveOptional_le base s.successCounterAddressOffset
  have h₂ := SiteOffsets.moveOptional_le base s.fallbackCounterAddressOffset
  have h₃ := SiteOffsets.moveOptional_le base s.pair0AddressOffset
  have h₄ := SiteOffsets.moveOptional_le base s.pair1AddressOffset
  have h₅ := SiteOffsets.moveOptional_le base s.shadowStoreOffset
  omega

/-- Sites registered behind others: each is an old one, or a moved one. -/
theorem mem_map_behind {α : Type} {offsets : α → SiteOffsets} {move : α → α} {xs ys : List α}
    {s : SiteOffsets} (h : s ∈ (xs ++ ys.map move).map offsets)
    (hmove : ∀ y, SiteOffsets.Behind base (offsets y) (offsets (move y))) :
    s ∈ xs.map offsets ∨ ∃ s' ∈ ys.map offsets, SiteOffsets.Behind base s' s := by
  rw [List.map_append, List.mem_append] at h
  rcases h with h | h
  · exact Or.inl h
  · obtain ⟨y', hy', rfl⟩ := List.mem_map.mp h
    obtain ⟨y, hy, rfl⟩ := List.mem_map.mp hy'
    exact Or.inr ⟨offsets y, List.mem_map_of_mem hy, hmove y⟩

end Append

namespace Fragment

/-- A site of two fragments is one of the first, or a moved one of the second. -/
theorem mem_siteOffsets_append {a b : Fragment} {s : SiteOffsets} (h : s ∈ (a.append b).siteOffsets) :
    s ∈ a.siteOffsets ∨ ∃ s' ∈ b.siteOffsets, SiteOffsets.Behind a.bytes.length s' s := by
  simp only [siteOffsets, append, List.mem_append] at h ⊢
  -- one case for each kind of site
  rcases h with (((((((((h | h) | h) | h) | h) | h) | h) | h) | h) | h) | h
  case inl.inl.inl.inl.inl.inr =>
    rcases mem_map_behind h AotGuardedSegmentPopSite.offsets_move with h | ⟨s', h', hb⟩
    · simp only [h, true_or, or_true]
    · exact Or.inr ⟨s', by simp only [h', true_or, or_true], hb⟩
  case inl.inl.inl.inr =>
    rcases mem_map_behind h AotGuardedSegmentLoadSite.offsets_move with h | ⟨s', h', hb⟩
    · simp only [h, true_or, or_true]
    · exact Or.inr ⟨s', by simp only [h', true_or, or_true], hb⟩
  all_goals
    rcases mem_map_behind h fun y => SiteOffsets.behind_move _ _ with h | ⟨s', h', hb⟩
    · simp only [h, true_or, or_true]
    · exact Or.inr ⟨s', by simp only [h', true_or, or_true], hb⟩

/-- Code behind code. -/
theorem OffsetsIn.append {a b : Fragment} (ha : a.OffsetsIn) (hb : b.OffsetsIn) :
    (a.append b).OffsetsIn := by
  intro s hs
  rw [append_bytes_length]
  rcases mem_siteOffsets_append hs with h | ⟨s', h', hbehind⟩
  · exact (ha s h).mono (Nat.le_add_right _ _)
  · exact (hb s' h').behind hbehind

/-- Only bytes and guard chains. -/
theorem offsetsIn_of_nil {f : Fragment} (h : f.siteOffsets = []) : f.OffsetsIn := by
  intro s hs
  rw [h] at hs
  cases hs

/-- The sites of a fragment, one by one. -/
theorem offsetsIn_of_sites {f : Fragment} (sites : List SiteOffsets) (h : f.siteOffsets = sites)
    (hin : ∀ o ∈ sites.flatMap SiteOffsets.all, o < f.bytes.length) : f.OffsetsIn := by
  intro s hs o ho
  rw [h] at hs
  exact hin o (List.mem_flatMap.mpr ⟨s, hs, ho⟩)

end Fragment

/-! ## Slots of the 32-bit back end -/

section Slots

variable {record : AotInstructionRecord} {f : Fragment}

theorem offsetsIn_boundarySlot (kind : AotFixupKind) (record : AotInstructionRecord) :
    (boundarySlot kind record).OffsetsIn := by
  refine Fragment.offsetsIn_of_sites [_] rfl ?_
  simp [SiteOffsets.all, boundarySlot, AotCodeCacheFixup.offsets]

theorem offsetsIn_emitTimerSafePoint (record : AotInstructionRecord) (longMode : Bool) :
    (emitTimerSafePoint record longMode).OffsetsIn := by
  refine Fragment.offsetsIn_of_sites [_] rfl ?_
  cases longMode <;> simp [SiteOffsets.all, emitTimerSafePoint, AotTimerSafePointSite.offsets]

theorem offsetsIn_safePointIf (plant : Bool) (record : AotInstructionRecord) (longMode : Bool) :
    (safePointIf plant record longMode).OffsetsIn := by
  unfold safePointIf
  split_ifs
  · exact offsetsIn_emitTimerSafePoint record longMode
  · exact Fragment.offsetsIn_of_nil rfl

theorem offsetsIn_emitBlockFallthrough (source target : Word) :
    (emitBlockFallthrough source target).OffsetsIn := by
  refine Fragment.offsetsIn_of_sites [_] rfl ?_
  simp [SiteOffsets.all, emitBlockFallthrough, AotCodeCacheFixup.offsets, appendRel32]

theorem offsetsIn_emitJump (record : AotInstructionRecord) : (emitJump record).OffsetsIn := by
  refine Fragment.offsetsIn_of_sites [_] rfl ?_
  simp [SiteOffsets.all, emitJump, edgeFixup, AotCodeCacheFixup.offsets, appendRel32]

theorem offsetsIn_emitDirectCall (record : AotInstructionRecord) : (emitDirectCall record).OffsetsIn := by
  refine Fragment.offsetsIn_of_sites [_] rfl ?_
  simp [SiteOffsets.all, emitDirectCall, edgeFixup, AotCodeCacheFixup.offsets, appendRel32]

theorem offsetsIn_emitConditionalBranch (safePoints : Bool) (record : AotInstructionRecord) :
    (emitConditionalBranch safePoints record).OffsetsIn := by
  unfold emitConditionalBranch
  split
  · refine Fragment.offsetsIn_of_sites [_] rfl ?_
    simp [SiteOffsets.all, edgeFixup, AotCodeCacheFixup.offsets]
  · refine (offsetsIn_safePointIf _ _ _).append (Fragment.offsetsIn_of_sites [_, _] rfl ?_)
    simp [SiteOffsets.all, edgeFixup, AotCodeCacheFixup.offsets, appendRel32]

theorem offsetsIn_emitIndirectInlineCacheSlot {count : ℕ}
    (h : emitIndirectInlineCacheSlot record count = some f) : f.OffsetsIn := by
  unfold emitIndirectInlineCacheSlot at h
  split at h
  swap
  · contradiction
  simp only at h
  split at h
  · contradiction
  split at h
  · contradiction
  rw [← Option.some.inj h]
  exact Fragment.offsetsIn_of_nil rfl

theorem offsetsIn_emitJumpTableSlot (h : emitJumpTableSlot record = some f) : f.OffsetsIn := by
  unfold emitJumpTableSlot at h
  simp only at h
  split_ifs at h with hbad
  rw [← Option.some.inj h]
  -- the table has a word for each target, and there is one
  rw [not_or] at hbad
  have hpos : 0 < record.tableTargets.length := Nat.pos_of_ne_zero hbad.1
  refine Fragment.offsetsIn_of_sites [_] rfl ?_
  simp [SiteOffsets.all, AotJumpTableSite.offsets, List.length_flatten]
  omega

theorem offsetsIn_emitAotDirectReturnProbe {source : Word} {popBytes : ℕ}
    (h : emitAotDirectReturnProbe source popBytes = some f) : f.OffsetsIn := by
  unfold emitAotDirectReturnProbe at h
  split_ifs at h
  all_goals
    rw [← Option.some.inj h]
    refine Fragment.offsetsIn_of_sites [_] rfl ?_
    simp [SiteOffsets.all, AotDirectReturnProbeSite.offsets]

theorem offsetsIn_returnMissTail (record : AotInstructionRecord) (dispatch : Bool) (popBytes : ℕ) :
    (returnMissTail record dispatch popBytes).OffsetsIn := by
  unfold returnMissTail
  split_ifs
  · refine Fragment.offsetsIn_of_sites [_] rfl ?_
    simp [SiteOffsets.all, AotDbtReturnDispatchSite.offsets]
  · exact Fragment.offsetsIn_of_nil rfl

theorem offsetsIn_emitReturnInlineCacheSlot {dispatch directReturnTable : Bool}
    (h : emitReturnInlineCacheSlot record dispatch directReturnTable = some f) : f.OffsetsIn := by
  unfold emitReturnInlineCacheSlot at h
  split at h
  · contradiction
  split_ifs at h with _ hprobe
  · rw [← Option.some.inj h]
    refine (Fragment.OffsetsIn.append (Fragment.offsetsIn_of_nil rfl) ?_).append
      (offsetsIn_returnMissTail record dispatch _)
    cases hslot : emitAotDirectReturnProbe record.guestAddress _ with
    | none => exact Fragment.offsetsIn_of_nil rfl
    | some probe => exact offsetsIn_emitAotDirectReturnProbe hslot
  · rw [← Option.some.inj h]
    exact (Fragment.OffsetsIn.append (Fragment.offsetsIn_of_nil rfl)
      (Fragment.offsetsIn_of_nil rfl)).append (offsetsIn_returnMissTail record dispatch _)

theorem offsetsIn_emitSegmentOverrideSlot {table : Table} (h : emitSegmentOverrideSlot table record = some f) :
    f.OffsetsIn := by
  obtain ⟨_, i, access, offset, -, -, -, haccess, rfl⟩ := emitSegmentOverrideSlot_eq_some h
  obtain ⟨hoffset, -⟩ := segmentOverrideAccess_spec haccess
  refine Fragment.offsetsIn_of_sites [_, _] rfl ?_
  simp [SiteOffsets.all, segmentOverrideSlot, AotSegmentOverrideSite.offsets, AotCodeCacheFixup.offsets,
    edgeFixup, appendRel32]
  omega

/-- A guarded pop or load slot: its offsets are those of the body. -/
theorem BodyOffsets.offsetsIn {body : GuardedSegmentBody} {a b : ℕ} (hbody : BodyOffsets body a b)
    (hbytes : f.bytes = body.bytes)
    (hsites : f.siteOffsets =
      [⟨[body.patchOffset], []⟩,
        ⟨[0, body.shadowAddressOffset, body.successCounterAddressOffset, body.fallbackCounterAddressOffset,
            body.fallbackOffset],
          [body.pair0AddressOffset, body.pair1AddressOffset, body.shadowStoreOffset]⟩]) : f.OffsetsIn := by
  refine Fragment.offsetsIn_of_sites _ hsites fun o ho => ?_
  rw [hbody.shadow, hbody.pair0, hbody.pair1, hbody.store, hbody.success, hbody.patch, hbody.counter,
    hbody.fallback] at ho
  rw [hbytes, hbody.length]
  simp only [SiteOffsets.all, List.flatMap_cons, List.flatMap_nil, List.cons_append, List.nil_append, List.mem_cons,
    List.not_mem_nil, or_false] at ho
  omega

theorem offsetsIn_emitGuardedSegmentPopSlot (h : emitGuardedSegmentPopSlot record = some f) :
    f.OffsetsIn := by
  unfold emitGuardedSegmentPopSlot at h
  have hbody := guardedSegmentBody_offsets [0x66, 0x8B, 0x44, 0x24, 0x08] 0x17 [0x8D, 0x64, 0x24, 0x04]
  generalize guardedSegmentBody [0x66, 0x8B, 0x44, 0x24, 0x08] 0x17 [0x8D, 0x64, 0x24, 0x04] = body at *
  split_ifs at h
  rw [← Option.some.inj h]
  exact hbody.offsetsIn rfl rfl

theorem offsetsIn_emitGuardedSegmentLoadSlot (h : emitGuardedSegmentLoadSlot record = some f) :
    f.OffsetsIn := by
  unfold emitGuardedSegmentLoadSlot at h
  split_ifs at h
  split at h
  · contradiction
  rename_i source _
  have hbody := guardedSegmentBody_offsets source 0x13 []
  generalize guardedSegmentBody source 0x13 [] = body at *
  rw [← Option.some.inj h]
  exact hbody.offsetsIn rfl rfl

theorem offsetsIn_emitGuardedSegmentReadSlot (h : emitGuardedSegmentReadSlot record = some f) :
    f.OffsetsIn := by
  unfold emitGuardedSegmentReadSlot at h
  split_ifs at h
  rw [← Option.some.inj h]
  refine Fragment.offsetsIn_of_sites [_, _] rfl ?_
  simp [SiteOffsets.all, AotGuardedSegmentReadSite.offsets, AotCodeCacheFixup.offsets, edgeFixup, appendRel32]

theorem offsetsIn_emitHleDispatchSlot (record : AotInstructionRecord) :
    (emitHleDispatchSlot record).OffsetsIn := by
  refine Fragment.offsetsIn_of_sites [_, _] rfl ?_
  simp [SiteOffsets.all, emitHleDispatchSlot, AotDbtHleDispatchSite.offsets, AotCodeCacheFixup.offsets, edgeFixup]

theorem offsetsIn_directEdgeDispatchStub (fixup : AotCodeCacheFixup) :
    (directEdgeDispatchStub fixup).OffsetsIn := by
  refine Fragment.offsetsIn_of_sites [_] rfl ?_
  simp [SiteOffsets.all, directEdgeDispatchStub, AotDbtDirectEdgeDispatchSite.offsets]

theorem offsetsIn_slotOr {kind : AotFixupKind} {enabled : Bool} {slot : Option Fragment}
    (h : ∀ f, slot = some f → f.OffsetsIn) : (slotOr kind record enabled slot).OffsetsIn := by
  unfold slotOr
  split_ifs
  · cases slot with
    | none => exact offsetsIn_boundarySlot kind record
    | some f => exact h f rfl
  · exact offsetsIn_boundarySlot kind record

/-- Every slot of the 32-bit back end. -/
theorem offsetsIn_emitLegacy (table : Table) (options : AotCodeCacheBuildOptions)
    (record : AotInstructionRecord) : (emitLegacy table options record).OffsetsIn := by
  unfold emitLegacy
  cases record.kind with
  | kCopy =>
    simp only
    split_ifs
    · exact offsetsIn_boundarySlot _ record
    · exact Fragment.offsetsIn_of_nil rfl
  | kReturn => exact offsetsIn_slotOr fun f hf => offsetsIn_emitReturnInlineCacheSlot hf
  | kFarReturn => exact offsetsIn_boundarySlot _ record
  | kDirectCall => exact offsetsIn_emitDirectCall record
  | kDirectJump => exact (offsetsIn_safePointIf _ _ _).append (offsetsIn_emitJump record)
  | kConditionalBranch => exact offsetsIn_emitConditionalBranch _ record
  | kHleBoundary =>
    exact offsetsIn_slotOr fun f hf => Option.some.inj hf ▸ offsetsIn_emitHleDispatchSlot record
  | kPortIo =>
    exact offsetsIn_slotOr fun f hf => Option.some.inj hf ▸ offsetsIn_emitHleDispatchSlot record
  | kSegmentOverrideMem => exact offsetsIn_slotOr fun f hf => offsetsIn_emitSegmentOverrideSlot hf
  | kGuardedSegmentPop => exact offsetsIn_slotOr fun f hf => offsetsIn_emitGuardedSegmentPopSlot hf
  | kGuardedSegmentLoad => exact offsetsIn_slotOr fun f hf => offsetsIn_emitGuardedSegmentLoadSlot hf
  | kGuardedSegmentPush => exact Fragment.offsetsIn_of_nil rfl
  | kGuardedSegmentRead => exact offsetsIn_slotOr fun f hf => offsetsIn_emitGuardedSegmentReadSlot hf
  | kIndirectExit => exact offsetsIn_slotOr fun f hf => offsetsIn_emitIndirectInlineCacheSlot hf
  | kJumpTable => exact offsetsIn_slotOr fun f hf => offsetsIn_emitJumpTableSlot hf

/-! ## Slots of the 64-bit back end -/

theorem offsetsIn_ofBytes (bytes : List Byte) : (Fragment.ofBytes bytes).OffsetsIn :=
  Fragment.offsetsIn_of_nil rfl

variable {table : Table} {host : Host} {slot : LongModeSlot}

theorem offsetsIn_emitLongMode16BitLoopNz (h : emitLongMode16BitLoopNz table record = some slot) :
    slot.code.OffsetsIn := by
  unfold emitLongMode16BitLoopNz at h
  split_ifs at h
  rw [← Option.some.inj h]
  refine Fragment.offsetsIn_of_sites [_] rfl ?_
  simp [SiteOffsets.all, AotCodeCacheFixup.offsets, edgeFixup, appendRel32]

theorem offsetsIn_emitLongModeDirectBranch (h : emitLongModeDirectBranch table host record = some slot) :
    slot.code.OffsetsIn := by
  unfold emitLongModeDirectBranch at h
  split at h
  · rw [← Option.some.inj h]
    exact offsetsIn_emitJump record
  · split_ifs at h
    split at h
    · contradiction
    · rw [← Option.some.inj h]
      exact offsetsIn_ofBytes _
  · split at h
    · contradiction
    · rw [← Option.some.inj h]
      refine Fragment.offsetsIn_of_sites [_] rfl ?_
      simp [SiteOffsets.all, AotCodeCacheFixup.offsets, edgeFixup, appendRel32]
      omega
  · split at h
    · contradiction
    · rw [← Option.some.inj h]
      refine Fragment.offsetsIn_of_sites [_] rfl ?_
      simp [SiteOffsets.all, AotCodeCacheFixup.offsets, edgeFixup, appendRel32]
  · contradiction

theorem offsetsIn_emitLongModeSegmentOverride (h : emitLongModeSegmentOverride table record = some slot) :
    slot.code.OffsetsIn := by
  unfold emitLongModeSegmentOverride at h
  simp only [Option.bind_eq_bind, Option.bind_eq_some_iff, Option.pure_def, Option.some.injEq] at h
  obtain ⟨⟨segmentPrefix, i⟩, -, flags, -, rfl⟩ := h
  obtain ⟨hoffset, -⟩ := longModeOverrideAccess_spec record.bytes segmentPrefix i
  refine Fragment.offsetsIn_of_sites [_, _, _] rfl ?_
  simp [SiteOffsets.all, longModeOverrideSlot, AotSegmentOverrideSite.offsets, AotCodeCacheFixup.offsets,
    edgeFixup, appendRel32]
  omega

/-- A long-mode pop or load slot: its offsets are those of the shared body. -/
theorem offsetsIn_shadowSlot (flags : FlagsSequences) (compare advance : List Byte) (sites : List SiteOffsets)
    (hbytes : f.bytes = (shadowSlot flags compare advance).bytes)
    (hsites : f.siteOffsets = sites)
    (hall : sites.flatMap SiteOffsets.all ⊆ [0, (shadowSlot flags compare advance).shadowAddressOffset,
        (shadowSlot flags compare advance).fallbackOffset,
        (shadowSlot flags compare advance).patchOffset]) : f.OffsetsIn := by
  refine Fragment.offsetsIn_of_sites _ hsites fun o ho => ?_
  have hmem := hall ho
  rw [hbytes]
  simp [shadowSlot, appendRel32] at hmem ⊢
  omega

theorem offsetsIn_emitLongModeGuardedSegmentLoad
    (h : emitLongModeGuardedSegmentLoad table record = some slot) : slot.code.OffsetsIn := by
  unfold emitLongModeGuardedSegmentLoad at h
  split_ifs at h
  obtain ⟨flags, -, rfl⟩ := Option.map_eq_some_iff.mp h
  refine offsetsIn_shadowSlot flags _ _ [_, _, _] rfl rfl ?_
  simp [SiteOffsets.all, AotGuardedSegmentLoadSite.offsets, AotCodeCacheFixup.offsets, edgeFixup]

theorem offsetsIn_emitLongModeGuardedSegmentPop
    (h : emitLongModeGuardedSegmentPop table record = some slot) : slot.code.OffsetsIn := by
  unfold emitLongModeGuardedSegmentPop at h
  split_ifs at h
  obtain ⟨flags, -, rfl⟩ := Option.map_eq_some_iff.mp h
  refine offsetsIn_shadowSlot flags _ _ [_, _, _] rfl rfl ?_
  simp [SiteOffsets.all, AotGuardedSegmentPopSite.offsets, AotCodeCacheFixup.offsets, edgeFixup]

theorem offsetsIn_longModeSegmentReadSlot (record : AotInstructionRecord) (head pad : List Byte)
    (gpr : ℕ) : (longModeSegmentReadSlot record head pad gpr).OffsetsIn := by
  refine Fragment.offsetsIn_of_sites [_, _, _] rfl ?_
  simp [SiteOffsets.all, longModeSegmentReadSlot, AotGuardedSegmentReadSite.offsets,
    AotCodeCacheFixup.offsets, edgeFixup, appendRel32]
  omega

theorem offsetsIn_emitLongModeGuardedSegmentRead (h : emitLongModeGuardedSegmentRead record = some slot) :
    slot.code.OffsetsIn := by
  unfold emitLongModeGuardedSegmentRead at h
  split at h
  · contradiction
  · rw [← Option.some.inj h]
    exact offsetsIn_longModeSegmentReadSlot record _ _ _

theorem offsetsIn_emitLongModeGuardedSegmentPush (h : emitLongModeGuardedSegmentPush record = some slot) :
    slot.code.OffsetsIn := by
  unfold emitLongModeGuardedSegmentPush at h
  split at h
  · contradiction
  · rw [← Option.some.inj h]
    exact offsetsIn_longModeSegmentReadSlot record _ _ _

theorem offsetsIn_emitLongModeIndirectCall (h : emitLongModeIndirectCall table host record = some slot) :
    slot.code.OffsetsIn := by
  unfold emitLongModeIndirectCall at h
  split at h
  · contradiction
  simp only [Option.bind_eq_bind, Option.bind_eq_some_iff, Option.pure_def, Option.some.injEq] at h
  obtain ⟨_, -, _, -, rfl⟩ := h
  exact offsetsIn_ofBytes _

theorem offsetsIn_emitLongModeJumpTable (h : emitLongModeJumpTable table host record = some slot) :
    slot.code.OffsetsIn := by
  unfold emitLongModeJumpTable at h
  split at h
  · contradiction
  obtain ⟨_, -, rfl⟩ := Option.map_eq_some_iff.mp h
  exact offsetsIn_ofBytes _

theorem offsetsIn_emitLongModeControl {options : AotCodeCacheBuildOptions}
    (h : emitLongModeControl table host options record = some slot) : slot.code.OffsetsIn := by
  unfold emitLongModeControl at h
  split at h
  · contradiction
  rcases Option.or_eq_some_iff.mp h with h | ⟨-, h⟩
  · exact offsetsIn_emitLongModeDirectBranch h
  split at h
  · exact offsetsIn_emitLongModeGuardedSegmentLoad h
  · exact offsetsIn_emitLongModeGuardedSegmentPop h
  · split_ifs at h
    exact offsetsIn_emitLongModeGuardedSegmentRead h
  · split_ifs at h
    exact offsetsIn_emitLongModeGuardedSegmentPush h
  · exact offsetsIn_emitLongModeIndirectCall h
  · exact offsetsIn_emitLongModeJumpTable h
  · split_ifs at h
    exact offsetsIn_emitLongModeSegmentOverride h
  · contradiction

/-- The observers are bytes only. -/
theorem siteOffsets_emitLinuxX64StackWriteTrace (host : Host) (record : AotInstructionRecord)
    (returnAddress : Word) :
    (emitLinuxX64StackWriteTrace host record returnAddress).code.siteOffsets = [] := by
  unfold emitLinuxX64StackWriteTrace
  split_ifs <;> rfl

theorem siteOffsets_emitLinuxX64NativeMemoryWriteTrace (table : Table) (host : Host)
    (record : AotInstructionRecord) :
    (emitLinuxX64NativeMemoryWriteTrace table host record).code.siteOffsets = [] := by
  unfold emitLinuxX64NativeMemoryWriteTrace
  simp only
  split_ifs <;> rfl

theorem siteOffsets_emitLinuxX64GuestEspTrace (host : Host) (record : AotInstructionRecord) :
    (emitLinuxX64GuestEspTrace host record).code.siteOffsets = [] := by
  unfold emitLinuxX64GuestEspTrace
  split_ifs <;> rfl

theorem siteOffsets_emitLongModeCopy (h : emitLongModeCopy table record = some slot) :
    slot.code.siteOffsets = [] := by
  unfold emitLongModeCopy at h
  simp only at h
  split_ifs at h
  · rw [← Option.some.inj h]
    rfl
  · split at h
    · contradiction
    · split_ifs at h
      rw [← Option.some.inj h]
      rfl

theorem offsetsIn_emitLongModeCopySlot (h : emitLongModeCopySlot table host record = some slot) :
    slot.code.OffsetsIn := by
  unfold emitLongModeCopySlot at h
  simp only at h
  split at h
  swap
  · contradiction
  split at h
  · contradiction
  rename_i copy hcopy
  rw [← Option.some.inj h]
  have hjump : (if isLongModeCsDataBoundary table record then
      (⟨{ bytes := appendRel32 0xE9
          fixups := [edgeFixup .kBlockFallthrough record record.next 1] }, 1⟩ : LongModeSlot)
      else ⟨{}, 0⟩).code.OffsetsIn := by
    split_ifs
    · refine Fragment.offsetsIn_of_sites [_] rfl ?_
      simp [SiteOffsets.all, AotCodeCacheFixup.offsets, edgeFixup, appendRel32]
    · exact Fragment.offsetsIn_of_nil rfl
  have hstack : (if record.mnemonic = .push then emitLinuxX64StackWriteTrace host record 0
      else ⟨{}, 0⟩).code.OffsetsIn := by
    split_ifs
    · exact Fragment.offsetsIn_of_nil (siteOffsets_emitLinuxX64StackWriteTrace host record 0)
    · exact Fragment.offsetsIn_of_nil rfl
  have hcode := Fragment.offsetsIn_of_nil (siteOffsets_emitLongModeCopy hcopy)
  have hmemory := Fragment.offsetsIn_of_nil (siteOffsets_emitLinuxX64NativeMemoryWriteTrace table host record)
  have hesp := Fragment.offsetsIn_of_nil (siteOffsets_emitLinuxX64GuestEspTrace host record)
  exact (((hcode.append hjump).append hstack).append hmemory).append hesp

theorem offsetsIn_then {a b : Option LongModeSlot} (ha : ∀ s, a = some s → s.code.OffsetsIn)
    (hb : ∀ s, b = some s → s.code.OffsetsIn) (h : LongModeSlot.then a b = some slot) :
    slot.code.OffsetsIn := by
  cases a with
  | none => exact hb slot h
  | some x =>
    cases b with
    | none => exact ha slot h
    | some y =>
      rw [← Option.some.inj h]
      exact (ha x rfl).append (hb y rfl)

/-- Every slot of the 64-bit back end. -/
theorem offsetsIn_emitLongMode (table : Table) (host : Host) (options : AotCodeCacheBuildOptions)
    (record : AotInstructionRecord) : (emitLongMode table host options record).code.OffsetsIn := by
  unfold emitLongMode
  split
  · rename_i slot hslot
    have hcode := offsetsIn_then (fun _ => offsetsIn_emitLongMode16BitLoopNz)
      (fun _ => offsetsIn_emitLongModeControl) hslot
    split_ifs
    · exact (offsetsIn_emitTimerSafePoint record true).append hcode
    · exact hcode
  · cases hcopy : emitLongModeCopySlot table host record with
    | none => exact offsetsIn_boundarySlot _ record
    | some slot => exact offsetsIn_emitLongModeCopySlot hcopy

theorem offsetsIn_emitSlot (input : BuildInput) (record : AotInstructionRecord) :
    (emitSlot input record).code.OffsetsIn := by
  unfold emitSlot
  split_ifs
  · exact offsetsIn_emitLongMode input.table input.host input.options record
  · exact offsetsIn_emitLegacy input.table input.options record

end Slots

/-! ## Images -/

section Emission

variable {Q : Fragment → Prop} {input : BuildInput}

/-- What emitted code is made of: slots, edges and safe points, one behind the other. -/
structure CodeInvariant (input : BuildInput) (Q : Fragment → Prop) : Prop where
  empty : Q {}
  append : ∀ a b, Q a → Q b → Q (a.append b)
  slot : ∀ record, Q (emitSlot input record).code
  edge : ∀ source target, Q (emitBlockFallthrough source target)
  safePoint : ∀ plant record longMode, Q (safePointIf plant record longMode)

theorem CodeInvariant.emitRecord (h : CodeInvariant input Q) {s : BuildState} (hs : Q s.code)
    (record : AotInstructionRecord) : Q (emitRecord input s record).code := by
  have hpending : Q (pendingEdge s.pending record.guestAddress) := by
    unfold pendingEdge
    split
    · split_ifs
      · exact h.edge _ _
      · exact h.empty
    · exact h.empty
  unfold Runtime.emitRecord
  split
  · exact hs
  · exact h.append _ _ (h.append _ _ hs hpending) (h.slot record)

theorem CodeInvariant.closeBlock (h : CodeInvariant input Q) {s : BuildState} (hs : Q s.code)
    (block : AotBasicBlock) : Q (closeBlock input s block).code := by
  unfold Runtime.closeBlock
  split
  · split
    · exact hs
    · split
      · split
        · exact hs
        · exact hs
      · exact h.append _ _ (h.append _ _ hs (h.safePoint _ _ _)) (h.edge _ _)
      · exact hs
  · exact hs

/-- The whole emission. -/
theorem CodeInvariant.emitBlocks (h : CodeInvariant input Q) (blocks : List AotBasicBlock) :
    Q (emitBlocks input blocks).code := by
  have hblocks : Q (blocks.foldl (emitBlock input) {}).code := by
    refine List.foldlRecOn (motive := fun s : BuildState => Q s.code) blocks _ h.empty
      fun s hs block _ => ?_
    refine h.closeBlock ?_ block
    exact List.foldlRecOn (motive := fun s : BuildState => Q s.code) block.instructions _ hs
      fun s hs record _ => h.emitRecord hs record
  unfold Runtime.emitBlocks
  simp only
  split
  · exact h.append _ _ hblocks (h.edge _ _)
  · exact hblocks

end Emission

theorem offsetsIn_invariant (input : BuildInput) : CodeInvariant input Fragment.OffsetsIn where
  empty := Fragment.offsetsIn_of_nil rfl
  append := fun _ _ ha hb => ha.append hb
  slot := offsetsIn_emitSlot input
  edge := offsetsIn_emitBlockFallthrough
  safePoint := offsetsIn_safePointIf

/-- A visited fixup is kept, with its displacement filled in. -/
theorem Fragment.OffsetsIn.push {f : Fragment} (h : f.OffsetsIn) {bytes : List Byte}
    (hlen : f.bytes.length ≤ bytes.length) {fixup : AotCodeCacheFixup}
    (hlt : fixup.cachePatchOffset < bytes.length) :
    OffsetsIn { f with bytes := bytes, fixups := f.fixups ++ [fixup] } := by
  intro x hx
  simp only [siteOffsets, List.map_append, List.map_cons, List.map_nil, List.mem_append,
    List.mem_singleton] at hx
  by_cases hfix : x = fixup.offsets
  · subst hfix
    simpa [SiteOffsets.In, SiteOffsets.all, AotCodeCacheFixup.offsets] using hlt
  · refine (h x ?_).mono hlen
    simp only [siteOffsets, List.mem_append]
    simpa only [hfix, or_false] using hx

/-- One fixup. -/
theorem offsetsIn_resolveFixup {input : BuildInput} {map : List AotAddressMapEntry}
    {s s' : ResolveState} {fixup : AotCodeCacheFixup} (h : s.code.OffsetsIn)
    (hlt : fixup.cachePatchOffset < s.code.bytes.length)
    (hstep : resolveFixup input map s fixup = some s') : s'.code.OffsetsIn := by
  obtain ⟨base, fixup', bytes, hbase, hpatch, hlength, hcode, -⟩ := resolveFixup_cases hstep
  have hin : base.OffsetsIn ∧ s.code.bytes.length ≤ base.bytes.length := by
    rcases hbase with rfl | rfl
    · exact ⟨h, le_rfl⟩
    · -- the stub of an edge that leaves the image stands behind the code
      refine ⟨h.append (offsetsIn_directEdgeDispatchStub fixup), ?_⟩
      rw [Fragment.append_bytes_length]
      exact Nat.le_add_right _ _
  rw [hcode]
  refine hin.1.push hlength.ge ?_
  have := hin.2
  omega

theorem offsetsIn_resolveFixups {input : BuildInput} {map : List AotAddressMapEntry}
    {fixups : List AotCodeCacheFixup} {s r : ResolveState} (h : s.code.OffsetsIn)
    (hlt : ∀ x ∈ fixups, x.cachePatchOffset < s.code.bytes.length)
    (hrun : resolveFixups input map fixups s = some r) : r.code.OffsetsIn := by
  induction fixups generalizing s with
  | nil =>
    rw [resolveFixups, Option.some.injEq] at hrun
    rwa [← hrun]
  | cons x xs ih =>
    rw [resolveFixups] at hrun
    split at hrun
    · contradiction
    rename_i s' hstep
    have hlen := (resolveFixup_keeps (Keeps.refl s.code) hstep).length
    refine ih (offsetsIn_resolveFixup h (hlt x List.mem_cons_self) hstep) (fun y hy => ?_) hrun
    exact (hlt y (List.mem_cons_of_mem x hy)).trans_le hlen

/-- The offsets of a finished image lie in its bytes. -/
theorem offsetsIn_buildAotCodeCacheImage {input : BuildInput} {plan : AotTranslationPlan}
    {image : AotCodeCacheImage} (h : buildAotCodeCacheImage input plan = some image) :
    image.code.OffsetsIn := by
  obtain ⟨r, hr, hcode, -, -⟩ := buildAotCodeCacheImage_eq_some h
  have hemitted := (offsetsIn_invariant input).emitBlocks plan.blocks
  rw [hcode]
  refine offsetsIn_resolveFixups ?_ ?_ hr
  · intro s hs
    refine hemitted s ?_
    simp only [Fragment.siteOffsets, List.map_nil, List.nil_append, List.append_assoc] at hs ⊢
    exact List.mem_append_right _ hs
  · intro x hx
    have hx' : x.offsets ∈ (emitBlocks input plan.blocks).code.siteOffsets := by
      simp only [Fragment.siteOffsets, List.mem_append, List.mem_map_of_mem hx, true_or]
    exact hemitted _ hx' _ (List.mem_singleton_self _)

end Repiu.Runtime
