import Repiu.Runtime.ImageSlots
import Repiu.Runtime.SiteOffsets

/-!
# Override sites of an image

Where the operands of the segment-override slots lie: behind their slot's first
byte, apart from each other, from the guarded slots and from the operands that
placement fills in.
-/

namespace Repiu.Runtime

open Repiu.Memory Repiu.X86

/-- The end of the operands of an override slot. -/
def AotSegmentOverrideSite.limit (s : AotSegmentOverrideSite) : ℕ := s.displacementOffset + 4

/-- The selector lies behind the first byte and in front of the displacement. -/
structure OverrideShape (s : AotSegmentOverrideSite) : Prop where
  segment_lt : s.segmentRegister < 6
  selector_gt : s.cacheOffset < s.guardSelectorOffset
  displacement_ge : s.guardSelectorOffset + 2 ≤ s.displacementOffset

theorem OverrideShape.move {s : AotSegmentOverrideSite} (h : OverrideShape s) (base : ℕ) :
    OverrideShape (s.move base) where
  segment_lt := h.segment_lt
  selector_gt := by
    have := h.selector_gt
    simp only [AotSegmentOverrideSite.move]
    omega
  displacement_ge := by
    have := h.displacement_ge
    simp only [AotSegmentOverrideSite.move]
    omega

/-- Override sites in code of the given size, apart from each other, from the starts of the guarded
slots and from windows. -/
structure OverrideSpec (overrides : List AotSegmentOverrideSite) (guarded : List ℕ)
    (windows : List Window) (size : ℕ) : Prop where
  shape : ∀ s ∈ overrides, OverrideShape s
  inside : ∀ s ∈ overrides, s.limit ≤ size
  guarded_lt : ∀ g ∈ guarded, g < size
  windows_le : ∀ w ∈ windows, w.1 + w.2 ≤ size
  apart : overrides.Pairwise fun s s' => s.limit ≤ s'.cacheOffset
  off_guarded : ∀ s ∈ overrides, ∀ g ∈ guarded, g ≠ s.cacheOffset
  off_windows : ∀ s ∈ overrides, ∀ w ∈ windows, w.1 + w.2 ≤ s.cacheOffset ∨ s.limit ≤ w.1

namespace OverrideSpec

variable {overrides overrides₁ overrides₂ : List AotSegmentOverrideSite} {guarded guarded₁ guarded₂ : List ℕ}
  {windows windows₁ windows₂ : List Window} {size size₁ size₂ : ℕ}

theorem start_lt (h : OverrideSpec overrides guarded windows size) {s : AotSegmentOverrideSite}
    (hs : s ∈ overrides) : s.cacheOffset < size := by
  have := (h.shape s hs).selector_gt
  have := (h.shape s hs).displacement_ge
  have := h.inside s hs
  unfold AotSegmentOverrideSite.limit at this
  omega

/-- Without override sites only the bounds are left. -/
theorem none (hguarded : ∀ g ∈ guarded, g < size) (hwindows : ∀ w ∈ windows, w.1 + w.2 ≤ size) :
    OverrideSpec [] guarded windows size where
  shape := by simp
  inside := by simp
  guarded_lt := hguarded
  windows_le := hwindows
  apart := List.Pairwise.nil
  off_guarded := by simp
  off_windows := by simp

/-- Two runs of code, one behind the other. -/
theorem append (h₁ : OverrideSpec overrides₁ guarded₁ windows₁ size₁)
    (h₂ : OverrideSpec overrides₂ guarded₂ windows₂ size₂)
    (hguarded : ∀ g ∈ guarded, g ∈ guarded₁ ∨ ∃ g' ∈ guarded₂, g = size₁ + g')
    (hwindows : ∀ w ∈ windows, w ∈ windows₁ ∨ ∃ w' ∈ windows₂, w = moveWindow size₁ w') :
    OverrideSpec (overrides₁ ++ overrides₂.map (AotSegmentOverrideSite.move size₁)) guarded windows
      (size₁ + size₂) where
  shape := by
    intro s hs
    rcases List.mem_append.mp hs with hs | hs
    · exact h₁.shape s hs
    · obtain ⟨s', hs', rfl⟩ := List.mem_map.mp hs
      exact (h₂.shape s' hs').move size₁
  inside := by
    intro s hs
    rcases List.mem_append.mp hs with hs | hs
    · have := h₁.inside s hs
      omega
    · obtain ⟨s', hs', rfl⟩ := List.mem_map.mp hs
      have := h₂.inside s' hs'
      simp only [AotSegmentOverrideSite.limit, AotSegmentOverrideSite.move] at this ⊢
      omega
  guarded_lt := by
    intro g hg
    rcases hguarded g hg with hg | ⟨g', hg', rfl⟩
    · have := h₁.guarded_lt g hg
      omega
    · have := h₂.guarded_lt g' hg'
      omega
  windows_le := by
    intro w hw
    rcases hwindows w hw with hw | ⟨w', hw', rfl⟩
    · have := h₁.windows_le w hw
      omega
    · have := h₂.windows_le w' hw'
      simp only [moveWindow]
      omega
  apart := by
    refine List.pairwise_append.mpr ⟨h₁.apart, ?_, ?_⟩
    · refine List.pairwise_map.mpr (h₂.apart.imp ?_)
      intro s s' hss
      simp only [AotSegmentOverrideSite.limit, AotSegmentOverrideSite.move] at hss ⊢
      omega
    · intro s hs s' hs'
      obtain ⟨s'', -, rfl⟩ := List.mem_map.mp hs'
      have := h₁.inside s hs
      simp only [AotSegmentOverrideSite.move]
      omega
  off_guarded := by
    intro s hs g hg
    rcases List.mem_append.mp hs with hs | hs
    · rcases hguarded g hg with hg | ⟨g', hg', rfl⟩
      · exact h₁.off_guarded s hs g hg
      · have := h₁.start_lt hs
        omega
    · obtain ⟨s', hs', rfl⟩ := List.mem_map.mp hs
      simp only [AotSegmentOverrideSite.move]
      rcases hguarded g hg with hg | ⟨g', hg', rfl⟩
      · have := h₁.guarded_lt g hg
        omega
      · have := h₂.off_guarded s' hs' g' hg'
        omega
  off_windows := by
    intro s hs w hw
    rcases List.mem_append.mp hs with hs | hs
    · rcases hwindows w hw with hw | ⟨w', hw', rfl⟩
      · exact h₁.off_windows s hs w hw
      · have := h₁.inside s hs
        simp only [moveWindow]
        omega
    · obtain ⟨s', hs', rfl⟩ := List.mem_map.mp hs
      rcases hwindows w hw with hw | ⟨w', hw', rfl⟩
      · have := h₁.windows_le w hw
        simp only [AotSegmentOverrideSite.move]
        omega
      · have := h₂.off_windows s' hs' w' hw'
        simp only [moveWindow, AotSegmentOverrideSite.limit, AotSegmentOverrideSite.move] at this ⊢
        omega

end OverrideSpec

/-- The override sites of a fragment. -/
def Fragment.OverridesIn (f : Fragment) : Prop :=
  OverrideSpec f.segmentOverrideSites f.guardedStarts f.placementWindows f.bytes.length

theorem Fragment.mem_guardedStarts_append {a b : Fragment} {g : ℕ} (hg : g ∈ (a.append b).guardedStarts) :
    g ∈ a.guardedStarts ∨ ∃ g' ∈ b.guardedStarts, g = a.bytes.length + g' := by
  simp only [guardedStarts, append, List.map_append, List.map_map, List.mem_append, List.mem_map] at hg ⊢
  rcases hg with ((h | ⟨s, hs, rfl⟩) | (h | ⟨s, hs, rfl⟩)) | (h | ⟨s, hs, rfl⟩)
  · exact Or.inl (Or.inl (Or.inl h))
  · exact Or.inr ⟨s.cacheOffset, Or.inl (Or.inl ⟨s, hs, rfl⟩), rfl⟩
  · exact Or.inl (Or.inl (Or.inr h))
  · exact Or.inr ⟨s.cacheOffset, Or.inl (Or.inr ⟨s, hs, rfl⟩), rfl⟩
  · exact Or.inl (Or.inr h)
  · exact Or.inr ⟨s.cacheOffset, Or.inr ⟨s, hs, rfl⟩, rfl⟩

theorem Fragment.OverridesIn.append {a b : Fragment} (ha : a.OverridesIn) (hb : b.OverridesIn) :
    (a.append b).OverridesIn := by
  unfold Fragment.OverridesIn
  rw [Fragment.append_bytes_length]
  exact OverrideSpec.append ha hb (fun g hg => Fragment.mem_guardedStarts_append hg)
    fun w hw => Fragment.mem_placementWindows_append hw

/-- A guarded slot is a segment slot. -/
theorem Fragment.mem_guardedStarts {f : Fragment} {g : ℕ} (hg : g ∈ f.guardedStarts) :
    ∃ v ∈ f.segmentViews, v.start = g := by
  simp only [guardedStarts, List.mem_append, List.mem_map] at hg
  simp only [segmentViews, List.mem_append]
  rcases hg with (⟨s, hs, rfl⟩ | ⟨s, hs, rfl⟩) | ⟨s, hs, rfl⟩
  · exact ⟨s.view, Or.inl (Or.inl (Or.inr (List.mem_map_of_mem hs))), rfl⟩
  · exact ⟨s.view, Or.inl (Or.inr (List.mem_map_of_mem hs)), rfl⟩
  · exact ⟨s.view, Or.inr (List.mem_map_of_mem hs), rfl⟩

/-! ## Slots -/

theorem segmentOverrideSites_of_no_views {f : Fragment} (h : f.segmentViews = []) :
    f.segmentOverrideSites = [] := by
  simp only [Fragment.segmentViews, List.append_eq_nil_iff, List.map_eq_nil_iff] at h
  exact h.1.1.1

theorem GapSpec.overridesIn {f : Fragment} (h : GapSpec f) : f.OverridesIn := by
  have hguarded : ∀ g ∈ f.guardedStarts, g < f.bytes.length := by
    intro g hg
    obtain ⟨v, hv, -⟩ := Fragment.mem_guardedStarts hg
    rw [h.no_views] at hv
    cases hv
  unfold Fragment.OverridesIn
  rw [segmentOverrideSites_of_no_views h.no_views]
  exact OverrideSpec.none hguarded fun w hw => (h.windows w hw).2

/-- What an emitter guarantees of its override site: none, or one that fills the slot. -/
def OverrideSlot (f : Fragment) : Prop :=
  f.segmentOverrideSites = [] ∨ ∃ s, f.segmentOverrideSites = [s] ∧ OverrideShape s ∧
    s.limit ≤ f.bytes.length ∧ f.guardedStarts = [] ∧ f.placementWindows = []

theorem OverrideSlot.overridesIn {f : Fragment} (h : OverrideSlot f) (hspec : SlotSpec f) :
    f.OverridesIn := by
  have hpos := hspec.pos
  have hguarded : ∀ g ∈ f.guardedStarts, g < f.bytes.length := by
    intro g hg
    obtain ⟨v, hv, rfl⟩ := Fragment.mem_guardedStarts hg
    rw [(hspec.views v hv).start_eq]
    exact hpos
  unfold Fragment.OverridesIn
  rcases h with hnone | ⟨s, hsite, hshape, hlimit, hstarts, hwindows⟩
  · rw [hnone]
    exact OverrideSpec.none hguarded fun w hw => (hspec.windows w hw).2
  · rw [hsite, hstarts, hwindows]
    refine ⟨?_, ?_, by simp, by simp, List.pairwise_singleton _ _, by simp, by simp⟩
    · intro s' hs'
      rw [List.mem_singleton.mp hs']
      exact hshape
    · intro s' hs'
      rw [List.mem_singleton.mp hs']
      exact hlimit

theorem overrideSlot_segmentOverrideSlot {record : AotInstructionRecord} {i : Instruction}
    {access : List Byte} {offset : ℕ} (hoffset : offset + 4 ≤ access.length)
    (hsegment : record.segmentOverrideRegister < 6) :
    OverrideSlot (segmentOverrideSlot record i access offset) := by
  refine Or.inr ⟨_, rfl, ⟨hsegment, ?_, ?_⟩, ?_, rfl, rfl⟩
  · simp
  · simp
    omega
  · simp [AotSegmentOverrideSite.limit, segmentOverrideSlot, appendRel32]
    omega

theorem segmentPrefixByte_lt {segment : ℕ} {b : Byte} (h : segmentPrefixByte segment = some b) :
    segment < 6 := by
  unfold segmentPrefixByte at h
  split at h
  all_goals first | contradiction | decide

theorem overrideSlot_emitSegmentOverrideSlot {table : Table} {record : AotInstructionRecord} {f : Fragment}
    (h : emitSegmentOverrideSlot table record = some f) : OverrideSlot f := by
  obtain ⟨_, i, access, offset, hprefix, -, -, haccess, rfl⟩ := emitSegmentOverrideSlot_eq_some h
  exact overrideSlot_segmentOverrideSlot (segmentOverrideAccess_spec haccess).1
    (segmentPrefixByte_lt hprefix)

theorem longModeSegmentPrefixByte_lt {segment : ℕ} {b : Byte}
    (h : longModeSegmentPrefixByte segment = some b) : segment < 6 := by
  unfold longModeSegmentPrefixByte at h
  split at h
  all_goals first | contradiction | decide

theorem overrideSlot_emitLongModeSegmentOverride {table : Table} {record : AotInstructionRecord}
    {slot : LongModeSlot} (h : emitLongModeSegmentOverride table record = some slot) :
    OverrideSlot slot.code := by
  unfold emitLongModeSegmentOverride at h
  simp only [Option.bind_eq_bind, Option.bind_eq_some_iff, Option.pure_def, Option.some.injEq] at h
  obtain ⟨⟨segmentPrefix, i⟩, hemittable, flags, -, rfl⟩ := h
  have hsegment : record.segmentOverrideRegister < 6 := by
    unfold longModeSegmentOverrideEmittable at hemittable
    simp only [Option.bind_eq_bind, Option.bind_eq_some_iff] at hemittable
    obtain ⟨b, hb, -⟩ := hemittable
    exact longModeSegmentPrefixByte_lt hb
  obtain ⟨hoffset, -⟩ := longModeOverrideAccess_spec record.bytes segmentPrefix i
  refine Or.inr ⟨_, rfl, ⟨hsegment, ?_, ?_⟩, ?_, rfl, rfl⟩
  · simp
  · simp
    omega
  · simp [AotSegmentOverrideSite.limit, longModeOverrideSlot, appendRel32]
    omega

/-- Where the override sites of a slot come from: there are none, or the slot is that of one of the two
override emitters. -/
inductive OverrideSource (table : Table) (record : AotInstructionRecord) (f : Fragment) : Prop
  | none (h : f.segmentOverrideSites = [])
  | legacy (h : emitSegmentOverrideSlot table record = some f)
  | longMode {slot : LongModeSlot} (h : emitLongModeSegmentOverride table record = some slot) (hcode : f = slot.code)

theorem OverrideSource.overrideSlot {table : Table} {record : AotInstructionRecord} {f : Fragment}
    (h : OverrideSource table record f) : OverrideSlot f := by
  cases h with
  | none h => exact Or.inl h
  | legacy h => exact overrideSlot_emitSegmentOverrideSlot h
  | longMode h hcode => exact hcode ▸ overrideSlot_emitLongModeSegmentOverride h

theorem recordGuardPrologue_ne_nil {slot : List Byte} (h : slot ≠ []) : recordGuardPrologue slot ≠ [] := by
  unfold recordGuardPrologue
  rw [ne_eq, List.take_eq_nil_iff, not_or]
  exact ⟨by decide, h⟩

/-- An override site keeps opening bytes of its slot. -/
theorem OverrideSource.guardPrologue_ne_nil {table : Table} {record : AotInstructionRecord} {f : Fragment}
    (h : OverrideSource table record f) : ∀ s ∈ f.segmentOverrideSites, s.guardPrologue ≠ [] := by
  intro s hs
  cases h with
  | none h =>
    rw [h] at hs
    cases hs
  | legacy h =>
    obtain ⟨_, i, access, offset, -, -, -, -, rfl⟩ := emitSegmentOverrideSlot_eq_some h
    rw [List.mem_singleton.mp hs]
    apply recordGuardPrologue_ne_nil
    simp
  | longMode h hcode =>
    unfold emitLongModeSegmentOverride at h
    simp only [Option.bind_eq_bind, Option.bind_eq_some_iff, Option.pure_def, Option.some.injEq] at h
    obtain ⟨⟨segmentPrefix, i⟩, -, flags, -, rfl⟩ := h
    rw [hcode] at hs
    rw [List.mem_singleton.mp hs]
    apply recordGuardPrologue_ne_nil
    simp

theorem overrideSource_slotOr {table : Table} {kind : AotFixupKind} {record : AotInstructionRecord}
    {enabled : Bool} {slot : Option Fragment} (hslot : ∀ f, slot = some f → OverrideSource table record f) :
    OverrideSource table record (slotOr kind record enabled slot) := by
  unfold slotOr
  split_ifs
  · cases hs : slot with
    | none => exact .none rfl
    | some f => exact hslot f hs
  · exact .none rfl

theorem no_overrides_append {a b : Fragment} (ha : a.segmentOverrideSites = [])
    (hb : b.segmentOverrideSites = []) : (a.append b).segmentOverrideSites = [] := by
  simp only [Fragment.append, ha, hb, List.map_nil, List.append_nil]

theorem no_overrides_returnSlot (record : AotInstructionRecord) (dispatch : Bool) (popBytes : ℕ)
    {probe : Option Fragment} (hprobe : ∀ f ∈ probe, f.segmentOverrideSites = []) :
    (returnSlot record dispatch popBytes probe).segmentOverrideSites = [] := by
  refine no_overrides_append (no_overrides_append rfl ?_) ?_
  · cases probe with
    | none => rfl
    | some f => exact hprobe f rfl
  · unfold returnMissTail
    split_ifs <;> rfl

theorem no_overrides_emitReturnInlineCacheSlot {record : AotInstructionRecord}
    {dispatch directReturnTable : Bool} {f : Fragment}
    (h : emitReturnInlineCacheSlot record dispatch directReturnTable = some f) :
    f.segmentOverrideSites = [] := by
  unfold emitReturnInlineCacheSlot at h
  split at h
  · contradiction
  rename_i popBytes _
  split at h
  · contradiction
  rw [← Option.some.inj h]
  refine no_overrides_returnSlot _ _ _ fun probe hprobe => ?_
  split at hprobe
  · unfold emitAotDirectReturnProbe at hprobe
    by_cases hbytes : popBytes < 4 ∨ 0xFFFF + 4 < popBytes
    · rw [if_pos hbytes] at hprobe
      cases hprobe
    · rw [if_neg hbytes] at hprobe
      rw [← Option.some.inj hprobe]
  · cases hprobe

theorem no_overrides_emitIndirectInlineCacheSlot {record : AotInstructionRecord} {count : ℕ} {f : Fragment}
    (h : emitIndirectInlineCacheSlot record count = some f) : f.segmentOverrideSites = [] := by
  unfold emitIndirectInlineCacheSlot at h
  split at h
  swap
  · contradiction
  simp only at h
  split at h
  · contradiction
  split at h
  · contradiction
  rw [← Option.some.inj h]

theorem no_overrides_emitConditionalBranch (safePoints : Bool) (record : AotInstructionRecord) :
    (emitConditionalBranch safePoints record).segmentOverrideSites = [] := by
  unfold emitConditionalBranch
  split
  · rfl
  · exact no_overrides_append (segmentOverrideSites_of_no_views (gapSpec_safePointIf _ _ _).no_views) rfl

/-- Every slot of the 32-bit back end. -/
theorem overrideSource_emitLegacy (table : Table) (options : AotCodeCacheBuildOptions)
    (record : AotInstructionRecord) : OverrideSource table record (emitLegacy table options record) := by
  unfold emitLegacy
  cases record.kind with
  | kCopy =>
    simp only
    split_ifs
    · exact .none rfl
    · exact .none rfl
  | kReturn =>
    exact overrideSource_slotOr fun f hf => .none (no_overrides_emitReturnInlineCacheSlot hf)
  | kFarReturn => exact .none rfl
  | kDirectCall => exact .none rfl
  | kDirectJump =>
    exact .none (segmentOverrideSites_of_no_views
      ((gapSpec_safePointIf _ _ _).append (gapSpec_emitJump record)).no_views)
  | kConditionalBranch =>
    exact .none (no_overrides_emitConditionalBranch _ record)
  | kHleBoundary =>
    refine overrideSource_slotOr fun f hf => .none ?_
    rw [← Option.some.inj hf]
    rfl
  | kPortIo =>
    refine overrideSource_slotOr fun f hf => .none ?_
    rw [← Option.some.inj hf]
    rfl
  | kSegmentOverrideMem =>
    exact overrideSource_slotOr fun f hf => .legacy hf
  | kGuardedSegmentPop =>
    refine overrideSource_slotOr fun f hf => .none ?_
    unfold emitGuardedSegmentPopSlot at hf
    split_ifs at hf
    rw [← Option.some.inj hf]
  | kGuardedSegmentLoad =>
    refine overrideSource_slotOr fun f hf => .none ?_
    unfold emitGuardedSegmentLoadSlot at hf
    split_ifs at hf
    split at hf
    · contradiction
    · rw [← Option.some.inj hf]
  | kGuardedSegmentPush => exact .none rfl
  | kGuardedSegmentRead =>
    refine overrideSource_slotOr fun f hf => .none ?_
    unfold emitGuardedSegmentReadSlot at hf
    split_ifs at hf
    rw [← Option.some.inj hf]
  | kIndirectExit =>
    exact overrideSource_slotOr fun f hf => .none (no_overrides_emitIndirectInlineCacheSlot hf)
  | kJumpTable =>
    refine overrideSource_slotOr fun f hf => .none ?_
    unfold emitJumpTableSlot at hf
    simp only at hf
    split_ifs at hf
    rw [← Option.some.inj hf]

theorem overrideSource_emitLongModeControl {table : Table} {host : Host} {options : AotCodeCacheBuildOptions}
    {record : AotInstructionRecord} {slot : LongModeSlot}
    (h : emitLongModeControl table host options record = some slot) :
    OverrideSource table record slot.code := by
  unfold emitLongModeControl at h
  split at h
  · contradiction
  rcases Option.or_eq_some_iff.mp h with h | ⟨-, h⟩
  · exact .none (segmentOverrideSites_of_no_views (longModeSpec_emitLongModeDirectBranch h).1.no_views)
  · split at h
    · unfold emitLongModeGuardedSegmentLoad at h
      split_ifs at h
      obtain ⟨flags, -, rfl⟩ := Option.map_eq_some_iff.mp h
      exact .none rfl
    · unfold emitLongModeGuardedSegmentPop at h
      split_ifs at h
      obtain ⟨flags, -, rfl⟩ := Option.map_eq_some_iff.mp h
      exact .none rfl
    · split at h
      · unfold emitLongModeGuardedSegmentRead at h
        split at h
        · contradiction
        · rw [← Option.some.inj h]
          exact .none rfl
      · contradiction
    · split at h
      · unfold emitLongModeGuardedSegmentPush at h
        split at h
        · contradiction
        · rw [← Option.some.inj h]
          exact .none rfl
      · contradiction
    · unfold emitLongModeIndirectCall at h
      split at h
      · contradiction
      simp only [Option.bind_eq_bind, Option.bind_eq_some_iff, Option.pure_def, Option.some.injEq] at h
      obtain ⟨load, -, push, -, rfl⟩ := h
      exact .none rfl
    · unfold emitLongModeJumpTable at h
      split at h
      · contradiction
      obtain ⟨load, -, rfl⟩ := Option.map_eq_some_iff.mp h
      exact .none rfl
    · split at h
      · exact .longMode h rfl
      · contradiction
    · contradiction

theorem segmentOverrideSites_of_no_offsets {f : Fragment} (h : f.siteOffsets = []) : f.segmentOverrideSites = [] := by
  simp only [Fragment.siteOffsets, List.append_eq_nil_iff, List.map_eq_nil_iff] at h
  exact h.1.1.2

theorem no_overrides_emitLongModeCopySlot {table : Table} {host : Host} {record : AotInstructionRecord}
    {slot : LongModeSlot} (h : emitLongModeCopySlot table host record = some slot) :
    slot.code.segmentOverrideSites = [] := by
  unfold emitLongModeCopySlot at h
  simp only at h
  split at h
  swap
  · contradiction
  split at h
  · contradiction
  rename_i copy hcopy
  rw [← Option.some.inj h]
  have hstack := siteOffsets_emitLinuxX64StackWriteTrace host record 0
  refine no_overrides_append (no_overrides_append (no_overrides_append (no_overrides_append ?_ ?_) ?_) ?_) ?_
  · exact segmentOverrideSites_of_no_offsets (siteOffsets_emitLongModeCopy hcopy)
  · split_ifs <;> rfl
  · split_ifs
    · exact segmentOverrideSites_of_no_offsets hstack
    · rfl
  · exact segmentOverrideSites_of_no_offsets (siteOffsets_emitLinuxX64NativeMemoryWriteTrace table host record)
  · exact segmentOverrideSites_of_no_offsets (siteOffsets_emitLinuxX64GuestEspTrace host record)

/-- Every slot of the 64-bit back end. -/
theorem overrideSource_emitLongMode {table : Table} {host : Host} {options : AotCodeCacheBuildOptions}
    {record : AotInstructionRecord} : OverrideSource table record (emitLongMode table host options record).code := by
  unfold emitLongMode
  split
  · rename_i slot hslot
    by_cases hbranch : record.kind = .kDirectJump ∨ record.kind = .kConditionalBranch
    · obtain ⟨hgap, -⟩ := then_branch hbranch hslot
      split_ifs
      · exact .none (segmentOverrideSites_of_no_views
          ((gapSpec_emitTimerSafePoint record true).append hgap).no_views)
      · exact .none (segmentOverrideSites_of_no_views hgap.no_views)
    · rw [not_or] at hbranch
      have hloop : emitLongMode16BitLoopNz table record = none := by
        simp [emitLongMode16BitLoopNz, hbranch.2]
      have hplant : plantLongModeSafePoint options record = false := by
        simp [plantLongModeSafePoint, hbranch.1, hbranch.2]
      rw [hloop, LongModeSlot.then] at hslot
      rw [hplant]
      exact overrideSource_emitLongModeControl hslot
  · cases hcopy : emitLongModeCopySlot table host record with
    | none => exact .none rfl
    | some slot => exact .none (no_overrides_emitLongModeCopySlot hcopy)

theorem overrideSource_emitSlot (input : BuildInput) (record : AotInstructionRecord) :
    OverrideSource input.table record (emitSlot input record).code := by
  unfold emitSlot
  split_ifs
  · exact overrideSource_emitLongMode
  · exact overrideSource_emitLegacy input.table input.options record

/-! ## Images -/

theorem overridesIn_invariant (input : BuildInput) :
    EmissionInvariant input fun _ s => s.code.OverridesIn where
  start := gapSpec_empty.overridesIn
  mapped := fun _ _ _ _ h => h
  slot := by
    intro done s record _ hrecord hmapped h
    have hslot := (overrideSource_emitSlot input record).overrideSlot.overridesIn (slotSpec_emitSlot hrecord).1
    rw [emitRecord, if_neg (by rw [hmapped]; decide)]
    exact (h.append (gapSpec_pendingEdge s.pending record.guestAddress).overridesIn).append hslot
  gap := fun _ _ _ _ hg h => h.append hg.overridesIn
  pending := fun _ _ _ h => h

/-- Code whose override sites name a segment and keep opening bytes of their slots. -/
def Fragment.ProloguesKept (f : Fragment) : Prop :=
  ∀ s ∈ f.segmentOverrideSites, s.segmentRegister < 6 ∧ s.guardPrologue ≠ []

theorem prologuesKept_of_none {f : Fragment} (h : f.segmentOverrideSites = []) : f.ProloguesKept := by
  intro s hs
  rw [h] at hs
  cases hs

theorem OverrideSource.prologuesKept {table : Table} {record : AotInstructionRecord} {f : Fragment}
    (h : OverrideSource table record f) : f.ProloguesKept := by
  intro s hs
  refine ⟨?_, h.guardPrologue_ne_nil s hs⟩
  rcases h.overrideSlot with hnone | ⟨s', hsite, hshape, -⟩
  · rw [hnone] at hs
    cases hs
  · rw [hsite] at hs
    rw [List.mem_singleton.mp hs]
    exact hshape.segment_lt

theorem prologues_invariant (input : BuildInput) : CodeInvariant input Fragment.ProloguesKept where
  empty := prologuesKept_of_none rfl
  append := by
    intro a b ha hb s hs
    rcases List.mem_append.mp hs with hleft | hright
    · exact ha s hleft
    · obtain ⟨s', hs', rfl⟩ := List.mem_map.mp hright
      exact hb s' hs'
  slot := fun record => (overrideSource_emitSlot input record).prologuesKept
  edge := fun _ _ => prologuesKept_of_none rfl
  safePoint := fun plant record longMode =>
    prologuesKept_of_none (segmentOverrideSites_of_no_views (gapSpec_safePointIf plant record longMode).no_views)

/-- The override sites of a finished image. -/
theorem overridesIn_buildAotCodeCacheImage {input : BuildInput} {plan : AotTranslationPlan}
    {image : AotCodeCacheImage} (hplan : EmittablePlan input.table plan)
    (h : buildAotCodeCacheImage input plan = some image) : image.code.OverridesIn := by
  obtain ⟨s, hs, hcode, -, -⟩ := buildAotCodeCacheImage_eq_some h
  have hemitted := (overridesIn_invariant input).emitBlocks hplan.records
  have hkeeps := resolveFixups_keeps ((Keeps.refl _).rewrite [] rfl) hs
  rw [← hcode] at hkeeps
  unfold Fragment.OverridesIn at hemitted ⊢
  have hlength := hkeeps.length
  rw [hkeeps.overrides, hkeeps.guarded]
  refine ⟨hemitted.shape, ?_, ?_, ?_, hemitted.apart, hemitted.off_guarded, ?_⟩
  · intro site hsite
    exact (hemitted.inside site hsite).trans hlength
  · intro g hg
    exact (hemitted.guarded_lt g hg).trans_le hlength
  · intro w hw
    rcases hkeeps.windows w hw with hw | hw
    · exact (hemitted.windows_le w hw).trans hlength
    · exact hw.2
  · intro site hsite w hw
    rcases hkeeps.windows w hw with hw | hw
    · exact hemitted.off_windows site hsite w hw
    · exact Or.inr ((hemitted.inside site hsite).trans hw.1)

/-- The override sites of a finished image name a segment and keep opening bytes of their slots. -/
theorem prologuesKept_of_image {input : BuildInput} {plan : AotTranslationPlan} {image : AotCodeCacheImage}
    (h : buildAotCodeCacheImage input plan = some image) : image.code.ProloguesKept := by
  obtain ⟨s, hs, hcode, -, -⟩ := buildAotCodeCacheImage_eq_some h
  have hkeeps := resolveFixups_keeps ((Keeps.refl _).rewrite [] rfl) hs
  rw [← hcode] at hkeeps
  unfold Fragment.ProloguesKept
  rw [hkeeps.overrides]
  exact (prologues_invariant input).emitBlocks plan.blocks

end Repiu.Runtime
