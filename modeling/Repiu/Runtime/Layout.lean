import Repiu.Runtime.Builder

/-!
# Layout of an image

Where the operands that later code patches lie.  An image is a run of slots, one
for each address-map entry, with gaps between them for the edges and the dispatch
stubs.  `SlotSpec` is what every emitter guarantees of its slot; `SiteSpec` is
what follows for the sites of a whole image, and later of a whole placement.
-/

namespace Repiu.Runtime

open Repiu.Memory

/-- Move a window. -/
def moveWindow (base : ℕ) (w : Window) : Window := (base + w.1, w.2)

/-! ## Segment slots as their patchers see them -/

/-- The start of a segment slot, the number of its opening bytes and its operands. -/
structure PatchView where
  start : ℕ
  opening : ℕ
  windows : List Window

namespace PatchView

/-- Move a view. -/
def move (base : ℕ) (v : PatchView) : PatchView :=
  ⟨base + v.start, v.opening, v.windows.map (moveWindow base)⟩

/-- The view starts at `lo` and writes only up to `hi`, its operands behind the first byte. -/
structure Within (v : PatchView) (lo hi : ℕ) : Prop where
  start_eq : v.start = lo
  opening_le : lo + v.opening ≤ hi
  windows_in : ∀ w ∈ v.windows, lo < w.1 ∧ w.1 + w.2 ≤ hi

theorem Within.move {v : PatchView} {lo hi : ℕ} (h : v.Within lo hi) (base : ℕ) :
    (v.move base).Within (base + lo) (base + hi) where
  start_eq := by simp only [PatchView.move, h.start_eq]
  opening_le := by
    have := h.opening_le
    simp only [PatchView.move]
    omega
  windows_in := by
    intro w hw
    simp only [PatchView.move, List.mem_map] at hw
    obtain ⟨w', hw', rfl⟩ := hw
    have := h.windows_in w' hw'
    constructor <;> simp only [moveWindow] <;> omega

end PatchView

/-- The view of an override slot. -/
def AotSegmentOverrideSite.view (s : AotSegmentOverrideSite) : PatchView :=
  ⟨s.cacheOffset, s.guardPrologue.length,
    [(s.guardAddressOffset, 4), (s.guardSelectorOffset, 2), (s.displacementOffset, 4)]⟩

/-- The operands of a guarded pop or load slot. -/
def guardedWindows (shadow pair0 pair1 store success fallback : ℕ) (counters : Bool) : List Window :=
  [(shadow, 4)] ++ (if pair0 ≠ 0 then [(pair0, 4), (pair1, 4), (store, 4)] else []) ++
    (if counters then [(success, 4), (fallback, 4)] else [])

/-- The view of a guarded pop slot. -/
def AotGuardedSegmentPopSite.view (s : AotGuardedSegmentPopSite) : PatchView :=
  ⟨s.cacheOffset, s.guardPrologue.length,
    guardedWindows s.shadowAddressOffset s.pair0AddressOffset s.pair1AddressOffset s.shadowStoreOffset
      s.successCounterAddressOffset s.fallbackCounterAddressOffset s.hasCounterOperands⟩

/-- The view of a guarded load slot. -/
def AotGuardedSegmentLoadSite.view (s : AotGuardedSegmentLoadSite) : PatchView :=
  ⟨s.cacheOffset, s.guardPrologue.length,
    guardedWindows s.shadowAddressOffset s.pair0AddressOffset s.pair1AddressOffset s.shadowStoreOffset
      s.successCounterAddressOffset s.fallbackCounterAddressOffset s.hasCounterOperands⟩

/-- The view of a guarded read slot. -/
def AotGuardedSegmentReadSite.view (s : AotGuardedSegmentReadSite) : PatchView :=
  ⟨s.cacheOffset, s.guardPrologue.length,
    [(s.shadowAddressOffset, 4), (s.loadShadowAddressOffset, 4)]⟩

theorem AotSegmentOverrideSite.view_move (base : ℕ) (s : AotSegmentOverrideSite) :
    (s.move base).view = s.view.move base := rfl

theorem AotGuardedSegmentReadSite.view_move (base : ℕ) (s : AotGuardedSegmentReadSite) :
    (s.move base).view = s.view.move base := rfl

/-- An operand that exists is behind the first byte, so moving keeps it apart from an absent one. -/
theorem guardedWindows_move (base shadow pair0 pair1 store success fallback : ℕ) (counters : Bool)
    (h : ∀ w ∈ guardedWindows shadow pair0 pair1 store success fallback counters, 0 < w.1) :
    guardedWindows (base + shadow) (moveOptional base pair0) (moveOptional base pair1)
        (moveOptional base store) (moveOptional base success) (moveOptional base fallback) counters =
      (guardedWindows shadow pair0 pair1 store success fallback counters).map (moveWindow base) := by
  unfold guardedWindows at h ⊢
  rw [List.map_append, List.map_append]
  congr 1
  · congr 1
    by_cases hp : pair0 = 0
    · simp [hp, moveOptional]
    · simp only [hp, ne_eq, not_false_eq_true, if_true, List.mem_append, List.mem_cons] at h
      have h1 := h (pair1, 4) (by simp)
      have h2 := h (store, 4) (by simp)
      have hp1 : pair1 ≠ 0 := by simp only at h1; omega
      have hp2 : store ≠ 0 := by simp only at h2; omega
      simp [hp, hp1, hp2, moveOptional, moveWindow]
  · by_cases hc : counters
    · simp only [hc, if_true, List.mem_append, List.mem_cons] at h
      have h1 := h (success, 4) (by simp)
      have h2 := h (fallback, 4) (by simp)
      have hp1 : success ≠ 0 := by simp only at h1; omega
      have hp2 : fallback ≠ 0 := by simp only at h2; omega
      simp [hc, hp1, hp2, moveOptional, moveWindow]
    · simp [hc]

theorem AotGuardedSegmentPopSite.view_move (base : ℕ) (s : AotGuardedSegmentPopSite)
    (h : ∀ w ∈ s.view.windows, 0 < w.1) : (s.move base).view = s.view.move base := by
  simp only [AotGuardedSegmentPopSite.view, AotGuardedSegmentPopSite.move, PatchView.move,
    guardedWindows_move base _ _ _ _ _ _ _ h]

theorem AotGuardedSegmentLoadSite.view_move (base : ℕ) (s : AotGuardedSegmentLoadSite)
    (h : ∀ w ∈ s.view.windows, 0 < w.1) : (s.move base).view = s.view.move base := by
  simp only [AotGuardedSegmentLoadSite.view, AotGuardedSegmentLoadSite.move, PatchView.move,
    guardedWindows_move base _ _ _ _ _ _ _ h]

namespace Fragment

/-- The segment slots of a fragment. -/
def segmentViews (f : Fragment) : List PatchView :=
  f.segmentOverrideSites.map AotSegmentOverrideSite.view ++
  f.guardedSegmentPopSites.map AotGuardedSegmentPopSite.view ++
  f.guardedSegmentLoadSites.map AotGuardedSegmentLoadSite.view ++
  f.guardedSegmentReadSites.map AotGuardedSegmentReadSite.view

/-- Where the guarded slots start. -/
def guardedStarts (f : Fragment) : List ℕ :=
  f.guardedSegmentPopSites.map AotGuardedSegmentPopSite.cacheOffset ++
  f.guardedSegmentLoadSites.map AotGuardedSegmentLoadSite.cacheOffset ++
  f.guardedSegmentReadSites.map AotGuardedSegmentReadSite.cacheOffset

/-- The operands placement fills in once. -/
def placementWindows (f : Fragment) : List Window :=
  f.timerSafePointSites.flatMap (fun s => [(s.requestAddressOffset, 4)]) ++
  f.jumpTableSites.flatMap (fun s =>
    [(s.displacementPatchOffset, 4), (s.tableCacheOffset, 4 * s.guestTargets.length)]) ++
  f.dbtReturnDispatchSites.flatMap (fun s =>
    [(s.missAddressImmediateOffset, 4), (s.thunkDisplacementOffset, 4)]) ++
  f.directReturnProbeSites.flatMap (fun s =>
    [(s.maskImmediateOffset, 4), (s.keyAddressOffset, 4), (s.targetAddressOffset, 4),
      (s.hitCounterAddressOffset, 4)]) ++
  f.dbtDirectEdgeDispatchSites.flatMap (fun s =>
    [(s.dispatchAddressImmediateOffset, 4), (s.thunkDisplacementOffset, 4)]) ++
  f.dbtHleDispatchSites.flatMap (fun s =>
    [(s.dispatchAddressImmediateOffset, 4), (s.thunkDisplacementOffset, 4)])

end Fragment

/-! ## Guard chains -/

/-- Guards that follow one another from `lo` to `hi`: compare, immediate, six-byte guard, `popfd`,
the stack adjustment and the jump. -/
def GuardsAt : ℕ → List AotInlineCacheEntry → ℕ → Prop
  | lo, [], hi => lo = hi
  | lo, g :: gs, hi =>
    g.compareOffset = lo ∧ lo + 2 ≤ g.targetImmediateOffset ∧
      g.guardOffset = g.targetImmediateOffset + 4 ∧ g.guardOffset + 8 ≤ g.jumpDisplacementOffset ∧
      GuardsAt (g.jumpDisplacementOffset + 4) gs hi

theorem GuardsAt.le {lo hi : ℕ} {gs : List AotInlineCacheEntry} (h : GuardsAt lo gs hi) : lo ≤ hi := by
  induction gs generalizing lo with
  | nil => exact Nat.le_of_eq h
  | cons g gs ih =>
    obtain ⟨-, h1, h2, h3, hrest⟩ := h
    have := ih hrest
    omega

theorem GuardsAt.move {lo hi : ℕ} {gs : List AotInlineCacheEntry} (h : GuardsAt lo gs hi) (base : ℕ) :
    GuardsAt (base + lo) (gs.map (AotInlineCacheEntry.move base)) (base + hi) := by
  induction gs generalizing lo with
  | nil => exact congrArg (base + ·) h
  | cons g gs ih =>
    obtain ⟨h0, h1, h2, h3, hrest⟩ := h
    have := ih hrest
    refine ⟨?_, ?_, ?_, ?_, ?_⟩
    · simp only [AotInlineCacheEntry.move, h0]
    · simp only [AotInlineCacheEntry.move]
      omega
    · simp only [AotInlineCacheEntry.move, h2]
      omega
    · simp only [AotInlineCacheEntry.move]
      omega
    · simpa only [AotInlineCacheEntry.move, Nat.add_assoc] using this

/-- The shape of an inline-cache site: its guards fill the slot from its second byte to the
guard target, and the miss tail follows inside `hi`. -/
structure ChainIn (site : AotIndirectInlineCacheSite) (lo hi : ℕ) : Prop where
  start_eq : site.cacheOffset = lo
  entries_ne : site.entries ≠ []
  first_immediate : site.targetImmediateOffset + 4 ≤ hi
  first_guard : site.guardOffset + 6 ≤ hi
  first_jump : site.jumpDisplacementOffset + 4 ≤ hi
  guards : GuardsAt (lo + 1) site.entries (aotInlineCacheGuardTargetOffset site)
  miss_ge : aotInlineCacheGuardTargetOffset site ≤ site.missCacheOffset
  miss_lt : site.missCacheOffset + 1 < hi
  short : hi ≤ lo + 255

theorem aotInlineCacheGuardTargetOffset_move (base : ℕ) (s : AotIndirectInlineCacheSite) :
    aotInlineCacheGuardTargetOffset (s.move base) = base + aotInlineCacheGuardTargetOffset s := by
  unfold aotInlineCacheGuardTargetOffset
  by_cases h : s.missProbeCacheOffset = 0
  · simp [AotIndirectInlineCacheSite.move, moveOptional, h]
  · simp [AotIndirectInlineCacheSite.move, moveOptional, h]

theorem ChainIn.move {site : AotIndirectInlineCacheSite} {lo hi : ℕ} (h : ChainIn site lo hi)
    (base : ℕ) : ChainIn (site.move base) (base + lo) (base + hi) where
  start_eq := congrArg (base + ·) h.start_eq
  entries_ne := by
    intro hnil
    exact h.entries_ne (List.map_eq_nil_iff.mp hnil)
  first_immediate := by
    have := h.first_immediate
    simp only [AotIndirectInlineCacheSite.move]
    omega
  first_guard := by
    have := h.first_guard
    simp only [AotIndirectInlineCacheSite.move]
    omega
  first_jump := by
    have := h.first_jump
    simp only [AotIndirectInlineCacheSite.move]
    omega
  guards := by
    rw [aotInlineCacheGuardTargetOffset_move]
    exact h.guards.move base
  miss_ge := by
    have := h.miss_ge
    rw [aotInlineCacheGuardTargetOffset_move]
    simp only [AotIndirectInlineCacheSite.move]
    omega
  miss_lt := by
    have := h.miss_lt
    simp only [AotIndirectInlineCacheSite.move]
    omega
  short := by
    have := h.short
    omega

/-- A guard as it is emitted: it jumps to the end of the chain. -/
structure GuardFresh (mem : Memory) (chainEnd : ℕ) (g : AotInlineCacheEntry) : Prop where
  compare : mem g.compareOffset = 0x81
  guard : mem g.guardOffset = 0xE9
  link : mem.get32 (g.guardOffset + 1) = rel32 (g.guardOffset + 1) chainEnd
  popfd : mem (g.guardOffset + 6) = 0x9D
  jump : mem (g.jumpDisplacementOffset - 1) = 0xE9

/-- Every guard of the site is as it was emitted. -/
def ChainFresh (mem : Memory) (site : AotIndirectInlineCacheSite) : Prop :=
  ∀ g ∈ site.entries, GuardFresh mem (aotInlineCacheGuardTargetOffset site) g

theorem rel32_move (base patch target : ℕ) :
    rel32 (base + patch) (base + target) = rel32 patch target := by
  unfold rel32
  congr 1
  push_cast
  ring

/-- Guards lie between the ends of their chain. -/
theorem GuardsAt.bounds {lo hi : ℕ} {gs : List AotInlineCacheEntry} (h : GuardsAt lo gs hi)
    {g : AotInlineCacheEntry} (hg : g ∈ gs) :
    lo ≤ g.compareOffset ∧ g.compareOffset + 2 ≤ g.targetImmediateOffset ∧
      g.guardOffset = g.targetImmediateOffset + 4 ∧ g.guardOffset + 8 ≤ g.jumpDisplacementOffset ∧
      g.jumpDisplacementOffset + 4 ≤ hi := by
  induction gs generalizing lo with
  | nil => cases hg
  | cons x xs ih =>
    obtain ⟨h0, h1, h2, h3, hrest⟩ := h
    have hle := hrest.le
    rcases List.mem_cons.mp hg with rfl | hx
    · omega
    · have := ih hrest hx
      omega

/-- A fresh chain stays fresh where its bytes are carried over to `base`. -/
theorem ChainFresh.move {mem mem' : Memory} {site : AotIndirectInlineCacheSite} {lo hi : ℕ}
    (h : ChainFresh mem site) (hin : ChainIn site lo hi) (base : ℕ)
    (heq : ∀ a, lo < a → a < aotInlineCacheGuardTargetOffset site → mem' (base + a) = mem a) :
    ChainFresh mem' (site.move base) := by
  intro g hg
  obtain ⟨g', hg', rfl⟩ := List.mem_map.mp hg
  have hb := hin.guards.bounds hg'
  have hf := h g' hg'
  rw [aotInlineCacheGuardTargetOffset_move]
  refine ⟨?_, ?_, ?_, ?_, ?_⟩
  · exact (heq _ (by omega) (by omega)).trans hf.compare
  · exact (heq _ (by omega) (by omega)).trans hf.guard
  · have hread : mem'.get32 (base + g'.guardOffset + 1) = mem.get32 (g'.guardOffset + 1) := by
      simp only [Memory.get32]
      rw [show base + g'.guardOffset + 1 = base + (g'.guardOffset + 1) by omega,
        show base + (g'.guardOffset + 1) + 1 = base + (g'.guardOffset + 2) by omega,
        show base + (g'.guardOffset + 1) + 2 = base + (g'.guardOffset + 3) by omega,
        show base + (g'.guardOffset + 1) + 3 = base + (g'.guardOffset + 4) by omega,
        heq _ (by omega) (by omega), heq _ (by omega) (by omega), heq _ (by omega) (by omega),
        heq _ (by omega) (by omega)]
    simp only [AotInlineCacheEntry.move]
    rw [hread, hf.link, Nat.add_assoc, rel32_move]
  · have := heq (g'.guardOffset + 6) (by omega) (by omega)
    simp only [AotInlineCacheEntry.move]
    rw [Nat.add_assoc, this]
    exact hf.popfd
  · have := heq (g'.jumpDisplacementOffset - 1) (by omega) (by omega)
    simp only [AotInlineCacheEntry.move]
    rw [show base + g'.jumpDisplacementOffset - 1 = base + (g'.jumpDisplacementOffset - 1) by omega, this]
    exact hf.jump

/-! ## Appending -/

/-- Sites that are registered behind others, moved to their place, have their windows moved. -/
theorem mem_flatMap_moved {α : Type} (base : ℕ) {xs ys : List α} {windows : α → List Window}
    {move : α → α} {w : Window} (hw : w ∈ (xs ++ ys.map move).flatMap windows)
    (hmove : ∀ s ∈ ys, windows (move s) = (windows s).map (moveWindow base)) :
    w ∈ xs.flatMap windows ∨ ∃ w' ∈ ys.flatMap windows, w = moveWindow base w' := by
  rw [List.flatMap_append, List.mem_append] at hw
  rcases hw with h | h
  · exact Or.inl h
  · obtain ⟨s', hs', hw⟩ := List.mem_flatMap.mp h
    obtain ⟨s, hs, rfl⟩ := List.mem_map.mp hs'
    rw [hmove s hs] at hw
    obtain ⟨w', hw', rfl⟩ := List.mem_map.mp hw
    exact Or.inr ⟨w', List.mem_flatMap.mpr ⟨s, hs, hw'⟩, rfl⟩

/-- The same for the views of segment sites. -/
theorem mem_map_moved {α : Type} {xs ys : List α} {view : α → PatchView} {base : ℕ} {move : α → α}
    {v : PatchView} (hv : v ∈ (xs ++ ys.map move).map view)
    (hmove : ∀ s ∈ ys, view (move s) = (view s).move base) :
    v ∈ xs.map view ∨ ∃ v' ∈ ys.map view, v = v'.move base := by
  rw [List.map_append, List.mem_append] at hv
  rcases hv with h | h
  · exact Or.inl h
  · obtain ⟨s', hs', rfl⟩ := List.mem_map.mp h
    obtain ⟨s, hs, rfl⟩ := List.mem_map.mp hs'
    exact Or.inr ⟨view s, List.mem_map_of_mem hs, hmove s hs⟩

namespace Fragment

/-- A segment slot of two fragments is one of the first, or a moved one of the second. -/
theorem mem_segmentViews_append {a b : Fragment}
    (hb : ∀ v ∈ b.segmentViews, ∀ w ∈ v.windows, 0 < w.1) {v : PatchView}
    (hv : v ∈ (a.append b).segmentViews) :
    v ∈ a.segmentViews ∨ ∃ v' ∈ b.segmentViews, v = v'.move a.bytes.length := by
  simp only [segmentViews, append, List.mem_append] at hv hb ⊢
  rcases hv with ((h | h) | h) | h
  · rcases mem_map_moved h fun s _ => s.view_move _ with h | ⟨v', h', rfl⟩
    · simp only [h, true_or]
    · exact Or.inr ⟨v', by simp only [h', true_or], rfl⟩
  · have hpos : ∀ s ∈ b.guardedSegmentPopSites, ∀ w ∈ s.view.windows, 0 < w.1 :=
      fun s hs => hb _ (by simp [List.mem_map_of_mem hs])
    rcases mem_map_moved h fun s hs => s.view_move _ (hpos s hs) with h | ⟨v', h', rfl⟩
    · simp only [h, true_or, or_true]
    · exact Or.inr ⟨v', by simp only [h', true_or, or_true], rfl⟩
  · have hpos : ∀ s ∈ b.guardedSegmentLoadSites, ∀ w ∈ s.view.windows, 0 < w.1 :=
      fun s hs => hb _ (by simp [List.mem_map_of_mem hs])
    rcases mem_map_moved h fun s hs => s.view_move _ (hpos s hs) with h | ⟨v', h', rfl⟩
    · simp only [h, true_or, or_true]
    · exact Or.inr ⟨v', by simp only [h', true_or, or_true], rfl⟩
  · rcases mem_map_moved h fun s _ => s.view_move _ with h | ⟨v', h', rfl⟩
    · simp only [h, true_or, or_true]
    · exact Or.inr ⟨v', by simp only [h', or_true], rfl⟩

/-- A placement operand of two fragments is one of the first, or a moved one of the second. -/
theorem mem_placementWindows_append {a b : Fragment} {w : Window}
    (hw : w ∈ (a.append b).placementWindows) :
    w ∈ a.placementWindows ∨ ∃ w' ∈ b.placementWindows, w = moveWindow a.bytes.length w' := by
  simp only [placementWindows, append, List.mem_append] at hw ⊢
  rcases hw with ((((h | h) | h) | h) | h) | h
  all_goals
    rcases mem_flatMap_moved a.bytes.length h fun s _ => rfl with h | ⟨w', h', rfl⟩
    · simp only [h, true_or, or_true]
    · exact Or.inr ⟨w', by simp only [h', true_or, or_true], rfl⟩

end Fragment

/-! ## Slots -/

/-- Read a byte string as a memory. -/
def ofBytes (bytes : List Byte) : Memory := fun i => bytes.getD i 0

/-- The bytes a fixup may have written: a whole displacement, or none for one that is left to
the dispatcher. -/
def fixupWidth (bytes : List Byte) (x : AotCodeCacheFixup) : ℕ :=
  if isExternalFixup bytes x then 1 else 4

/-- The fixups lie in the bytes, in order and apart. -/
structure FixupsIn (f : Fragment) : Prop where
  inside : ∀ x ∈ f.fixups, x.cachePatchOffset + fixupWidth f.bytes x ≤ f.bytes.length
  positive : ∀ x ∈ f.fixups, isExternalFixup f.bytes x = false → 0 < x.cachePatchOffset
  sorted : f.fixups.Pairwise fun x y =>
    x.cachePatchOffset + fixupWidth f.bytes x ≤ y.cachePatchOffset

/-- The placement operands lie behind the first byte. -/
def WindowsIn (f : Fragment) : Prop :=
  ∀ w ∈ f.placementWindows, 0 < w.1 ∧ w.1 + w.2 ≤ f.bytes.length

/-- A slot with an inline cache has nothing else in front of the end of its guard chain. -/
structure ChainSlot (f : Fragment) (site : AotIndirectInlineCacheSite) : Prop where
  shape : ChainIn site 0 f.bytes.length
  fresh : ChainFresh (ofBytes f.bytes) site
  no_fixups : f.fixups = []
  no_views : f.segmentViews = []
  windows_behind : ∀ w ∈ f.placementWindows, aotInlineCacheGuardTargetOffset site ≤ w.1

/-- What an emitter guarantees of its slot. -/
structure SlotSpec (f : Fragment) : Prop where
  pos : 0 < f.bytes.length
  fixups : FixupsIn f
  windows : WindowsIn f
  views : ∀ v ∈ f.segmentViews, v.Within 0 f.bytes.length
  chain : f.indirectInlineCacheSites = [] ∨
    ∃ site, f.indirectInlineCacheSites = [site] ∧ ChainSlot f site

/-! ### Fixups of two fragments -/

theorem isExternalFixup_left {bytes rest : List Byte} {x : AotCodeCacheFixup}
    (h : x.cachePatchOffset < bytes.length) :
    isExternalFixup (bytes ++ rest) x = isExternalFixup bytes x := by
  simp only [isExternalFixup, List.getD_append _ _ _ _ h]

theorem isExternalFixup_move (bytes rest : List Byte) (x : AotCodeCacheFixup) :
    isExternalFixup (bytes ++ rest) (x.move bytes.length) = isExternalFixup rest x := by
  have hbyte : (bytes ++ rest).getD (bytes.length + x.cachePatchOffset) 0 =
      rest.getD x.cachePatchOffset 0 := by
    rw [List.getD_append_right _ _ _ _ (Nat.le_add_right _ _), Nat.add_sub_cancel_left]
  simp only [isExternalFixup, AotCodeCacheFixup.move, hbyte]

theorem FixupsIn.lt_length {f : Fragment} (h : FixupsIn f) {x : AotCodeCacheFixup}
    (hx : x ∈ f.fixups) : x.cachePatchOffset < f.bytes.length := by
  have := h.inside x hx
  unfold fixupWidth at this
  split_ifs at this <;> omega

/-- The fixups of two fragments are apart when those of each are. -/
theorem FixupsIn.append {a b : Fragment} (ha : FixupsIn a) (hb : FixupsIn b) :
    FixupsIn (a.append b) := by
  have hleft : ∀ x ∈ a.fixups, fixupWidth (a.append b).bytes x = fixupWidth a.bytes x := by
    intro x hx
    simp only [fixupWidth, Fragment.append_bytes, isExternalFixup_left (ha.lt_length hx)]
  have hright : ∀ x : AotCodeCacheFixup,
      fixupWidth (a.append b).bytes (x.move a.bytes.length) = fixupWidth b.bytes x := by
    intro x
    simp only [fixupWidth, Fragment.append_bytes, isExternalFixup_move]
  refine ⟨?_, ?_, ?_⟩
  · intro x hx
    rcases List.mem_append.mp hx with hx | hx
    · have := ha.inside x hx
      rw [hleft x hx, Fragment.append_bytes_length]
      omega
    · obtain ⟨y, hy, rfl⟩ := List.mem_map.mp hx
      have := hb.inside y hy
      rw [hright, Fragment.append_bytes_length]
      simp only [AotCodeCacheFixup.move]
      omega
  · intro x hx hext
    rcases List.mem_append.mp hx with hx | hx
    · rw [Fragment.append_bytes, isExternalFixup_left (ha.lt_length hx)] at hext
      exact ha.positive x hx hext
    · obtain ⟨y, hy, rfl⟩ := List.mem_map.mp hx
      rw [Fragment.append_bytes, isExternalFixup_move] at hext
      have := hb.positive y hy hext
      simp only [AotCodeCacheFixup.move]
      omega
  · refine List.pairwise_append.mpr ⟨?_, ?_, ?_⟩
    · refine ha.sorted.imp_of_mem ?_
      intro x y hx _ hxy
      rwa [hleft x hx]
    · refine List.pairwise_map.mpr (hb.sorted.imp ?_)
      intro x y hxy
      rw [hright]
      simp only [AotCodeCacheFixup.move]
      omega
    · intro x hx y hy
      obtain ⟨z, hz, rfl⟩ := List.mem_map.mp hy
      have := ha.inside x hx
      rw [hleft x hx]
      simp only [AotCodeCacheFixup.move]
      omega

theorem WindowsIn.append {a b : Fragment} (ha : WindowsIn a) (hb : WindowsIn b) :
    WindowsIn (a.append b) := by
  intro w hw
  rw [Fragment.append_bytes_length]
  rcases Fragment.mem_placementWindows_append hw with h | ⟨w', h, rfl⟩
  · have := ha w h
    omega
  · have := hb w' h
    simp only [moveWindow]
    omega

/-- What is emitted between the slots. -/
structure GapSpec (f : Fragment) : Prop where
  fixups : FixupsIn f
  windows : WindowsIn f
  no_views : f.segmentViews = []
  no_chain : f.indirectInlineCacheSites = []

/-- A safe point in front of a slot without sites is part of the slot. -/
theorem GapSpec.append {a b : Fragment} (ha : GapSpec a) (hb : GapSpec b) : GapSpec (a.append b) where
  fixups := ha.fixups.append hb.fixups
  windows := ha.windows.append hb.windows
  no_views := by
    refine List.eq_nil_iff_forall_not_mem.mpr ?_
    intro v hv
    rcases Fragment.mem_segmentViews_append (by simp [hb.no_views]) hv with h | ⟨v', h, -⟩
    · simp [ha.no_views] at h
    · simp [hb.no_views] at h
  no_chain := by simp only [Fragment.append, ha.no_chain, hb.no_chain, List.map_nil, List.append_nil]

theorem GapSpec.slotSpec {f : Fragment} (h : GapSpec f) (hpos : 0 < f.bytes.length) : SlotSpec f where
  pos := hpos
  fixups := h.fixups
  windows := h.windows
  views := by simp [h.no_views]
  chain := Or.inl h.no_chain

theorem gapSpec_empty : GapSpec {} where
  fixups := ⟨by simp, by simp, by simp⟩
  windows := by simp [WindowsIn, Fragment.placementWindows]
  no_views := rfl
  no_chain := rfl

end Repiu.Runtime
