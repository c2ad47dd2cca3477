import Repiu.Engine.SegmentTable
import Repiu.Engine.RetiredCode
import Repiu.Runtime.OverrideSites
import Repiu.X86.Rows

/-!
# Segment folds

An open override slot compares with the selector and adds the base of the table it
was patched with last.  Re-resolution remembers the table it patched every slot
with, while an append patches its own slots with the table of that moment; a
re-resolution that finds the remembered table unchanged leaves these as they are.
-/

namespace Repiu.Engine

open Repiu.Runtime Repiu.Memory Repiu.X86

/-! ## Folded slots -/

/-- The slot runs its guard: it starts neither with a trap nor with the jump of a relink. -/
def Open (m : Memory) (s : AotSegmentOverrideSite) : Prop :=
  m s.cacheOffset ≠ 0xCC ∧ m s.cacheOffset ≠ 0xE9

/-- The slot compares with the selector the table has for its segment, and its displacement is the
guest's plus the table's base. -/
def FoldedBy (table : AotSegmentTable) (m : Memory) (s : AotSegmentOverrideSite) : Prop :=
  ∃ r, table.find s.segmentRegister = some r ∧ m.get16 s.guardSelectorOffset = r.selector ∧
    m.get32 s.displacementOffset = s.originalDisplacement + r.base

/-- Two tables fold a slot alike. -/
def SameFold (s : AotSegmentOverrideSite) (table table' : AotSegmentTable) : Prop :=
  ∃ r r', table.find s.segmentRegister = some r ∧ table'.find s.segmentRegister = some r' ∧
    r.selector = r'.selector ∧ r.base = r'.base

theorem FoldedBy.iff_sameFold {table table' : AotSegmentTable} {m : Memory} {s : AotSegmentOverrideSite}
    (h : FoldedBy table m s) : FoldedBy table' m s ↔ SameFold s table table' := by
  obtain ⟨r, hr, hselector, hbase⟩ := h
  constructor
  · rintro ⟨r', hr', hselector', hbase'⟩
    refine ⟨r, r', hr, hr', hselector.symm.trans hselector', ?_⟩
    exact BitVec.add_right_inj s.originalDisplacement |>.mp (hbase.symm.trans hbase')
  · rintro ⟨r₁, r', hr₁, hr', hselectors, hbases⟩
    obtain rfl : r₁ = r := Option.some.inj (hr₁.symm.trans hr)
    exact ⟨r', hr', hselector.trans hselectors, by rw [hbase, hbases]⟩

/-- The slot is closed, or its bytes are those from before. -/
def KeepsFold (m m' : Memory) (s : AotSegmentOverrideSite) : Prop :=
  ¬Open m' s ∨ ∀ a, s.cacheOffset ≤ a → a < s.limit → m' a = m a

theorem FoldedBy.congr {table : AotSegmentTable} {m m' : Memory} {s : AotSegmentOverrideSite}
    (hshape : OverrideShape s) (h : FoldedBy table m s)
    (hsame : ∀ a, s.cacheOffset ≤ a → a < s.limit → m' a = m a) : FoldedBy table m' s := by
  obtain ⟨r, hr, hselector, hbase⟩ := h
  have h₁ := hshape.selector_gt
  have h₂ := hshape.displacement_ge
  unfold AotSegmentOverrideSite.limit at hsame
  refine ⟨r, hr, ?_, ?_⟩
  · rw [get16_congr fun a _ _ => hsame a (by omega) (by omega), hselector]
  · rw [get32_congr fun a _ _ => hsame a (by omega) (by omega), hbase]

/-- A slot that is open behind such a step was open before it, with the same fold. -/
theorem KeepsFold.open {m m' : Memory} {s : AotSegmentOverrideSite} (hshape : OverrideShape s)
    (h : KeepsFold m m' s) (hopen : Open m' s) :
    Open m s ∧ ∀ table, FoldedBy table m s → FoldedBy table m' s := by
  rcases h with hclosed | hsame
  · exact absurd hopen hclosed
  have h₁ := hshape.selector_gt
  have h₂ := hshape.displacement_ge
  have hstart : m' s.cacheOffset = m s.cacheOffset := by
    refine hsame _ le_rfl ?_
    unfold AotSegmentOverrideSite.limit
    omega
  unfold Open at hopen ⊢
  rw [hstart] at hopen
  exact ⟨hopen, fun table hfold => hfold.congr hshape hsame⟩

/-! ## Patching -/

/-- A patched slot is closed or folded by the table. -/
theorem patchSegmentOverrideSite_spec {s : AotSegmentOverrideSite} (hshape : OverrideShape s) (base : ℕ)
    (table : AotSegmentTable) (m : Memory) :
    patchSegmentOverrideSite base table m s (base + s.cacheOffset) = 0xCC ∨
      FoldedBy table (patchSegmentOverrideSite base table m s) (s.move base) := by
  have hfind : table.find s.segmentRegister = some (table.segments ⟨s.segmentRegister, hshape.segment_lt⟩) := by
    rw [AotSegmentTable.find, dif_pos hshape.segment_lt]
  have hafter := hshape.displacement_ge
  unfold patchSegmentOverrideSite
  rw [hfind]
  simp only
  split_ifs with hclosed
  · exact Or.inl (set_self _ _ _)
  · refine Or.inr ⟨_, hfind, ?_, ?_⟩
    · show get16 _ (base + s.guardSelectorOffset) = _
      rw [get16_congr fun a _ _ => set32_out _ _ (by omega), get16_setBytes]
    · exact get32_set32 _ _ _

/-- A byte a segment slot's patcher may write lies in the slot's entry. -/
theorem covers_in_entry {views : List PatchView} {chains : List AotIndirectInlineCacheSite}
    {map : List AotAddressMapEntry} {size : ℕ} (h : SiteSpec views chains map size) {v : PatchView}
    (hv : v ∈ views) {base a : ℕ} (hcovers : Covers base v a) :
    ∃ e ∈ map, v.start = e.cacheOffset ∧ base + e.cacheOffset ≤ a ∧ a < base + e.limit := by
  obtain ⟨e, he, hview⟩ := h.views_in v hv
  have hstart := hview.start_eq
  have hopening := hview.opening_le
  have hpos := (h.entries_in e he).1
  refine ⟨e, he, hstart, ?_⟩
  unfold AotAddressMapEntry.limit at *
  rcases hcovers with heq | ⟨hge, hlt⟩ | ⟨w, hw, hge, hlt⟩
  · omega
  · omega
  · have := hview.windows_in w hw
    omega

/-- The operands of an override slot lie in its entry. -/
theorem span_in_entry {views : List PatchView} {chains : List AotIndirectInlineCacheSite}
    {map : List AotAddressMapEntry} {size : ℕ} (h : SiteSpec views chains map size)
    {s : AotSegmentOverrideSite} (hs : s.view ∈ views) :
    ∃ e ∈ map, s.cacheOffset = e.cacheOffset ∧ s.limit ≤ e.limit := by
  obtain ⟨e, he, hview⟩ := h.views_in s.view hs
  have hdisplacement := hview.windows_in (s.displacementOffset, 4) (by simp [AotSegmentOverrideSite.view])
  exact ⟨e, he, hview.start_eq, hdisplacement.2⟩

/-- The slot of another start does not write to the operands of an override slot. -/
theorem not_covers_span {views : List PatchView} {chains : List AotIndirectInlineCacheSite}
    {map : List AotAddressMapEntry} {size : ℕ} (h : SiteSpec views chains map size)
    {s : AotSegmentOverrideSite} (hs : s.view ∈ views) {v : PatchView} (hv : v ∈ views)
    (hne : v.start ≠ s.cacheOffset) {base a : ℕ} (hlo : base + s.cacheOffset ≤ a)
    (hhi : a < base + s.limit) : ¬Covers base v a := by
  intro hcovers
  obtain ⟨e, he, hstart, hge, hlt⟩ := covers_in_entry h hv hcovers
  obtain ⟨e', he', hstart', hlimit⟩ := span_in_entry h hs
  rcases Nat.lt_or_gt_of_ne (show e.cacheOffset ≠ e'.cacheOffset by omega) with hlt' | hlt'
  · have := limit_le_of_lt h.entries_apart he he' hlt'
    omega
  · have := limit_le_of_lt h.entries_apart he' he hlt'
    omega

/-- A byte no window and no slot covers is not written. -/
theorem Resolves.uncovered {base : ℕ} {windows : List Window} {views : List PatchView} {opened : ℕ → Bool}
    {m m' : Memory} (h : Resolves base windows views opened m m') {a : ℕ}
    (hwindows : ∀ w ∈ windows, a < base + w.1 ∨ base + w.1 + w.2 ≤ a)
    (hviews : ∀ v ∈ views, ¬Covers base v a) : m' a = m a := by
  rcases h a hwindows fun v hv hcovers => absurd hcovers (hviews v hv) with heq | ⟨-, v, hv, heq⟩
  · exact heq
  · exact absurd (Or.inl heq) (hviews v hv)

/-- A byte no window covers is not written by a step that writes windows only. -/
theorem Resolves.windows_frame {base : ℕ} {windows : List Window} {m m' : Memory}
    (h : Resolves base windows [] (fun _ => true) m m') {a : ℕ}
    (hwindows : ∀ w ∈ windows, a < base + w.1 ∨ base + w.1 + w.2 ≤ a) : m' a = m a :=
  h.uncovered hwindows (by simp)

section Patch

variable {views : List PatchView} {chains : List AotIndirectInlineCacheSite} {map : List AotAddressMapEntry}
  {size : ℕ} {guarded : List ℕ} {windows : List Window} {overrides : List AotSegmentOverrideSite}

/-- Every patched slot is closed or folded by the table. -/
theorem patchAotSegmentOverrideSites_spec (hsites : SiteSpec views chains map size)
    (hoverrides : OverrideSpec overrides guarded windows size) (hviews : ∀ s ∈ overrides, s.view ∈ views)
    (base : ℕ) (table : AotSegmentTable) (m : Memory) {s : AotSegmentOverrideSite} (hs : s ∈ overrides) :
    patchAotSegmentOverrideSites base table overrides m (base + s.cacheOffset) = 0xCC ∨
      FoldedBy table (patchAotSegmentOverrideSites base table overrides m) (s.move base) := by
  have hapart := hoverrides.apart
  have hshape := hoverrides.shape
  have hlt : s.cacheOffset < s.limit := by
    have h₁ := (hshape s hs).selector_gt
    have h₂ := (hshape s hs).displacement_ge
    unfold AotSegmentOverrideSite.limit
    omega
  clear hoverrides
  unfold patchAotSegmentOverrideSites
  induction overrides generalizing m with
  | nil => cases hs
  | cons x xs ih =>
    rw [List.foldl_cons]
    obtain ⟨hhead, htail⟩ := List.pairwise_cons.mp hapart
    rcases List.mem_cons.mp hs with rfl | hx
    · -- the slots behind it do not write to its operands
      have hrest : ∀ a, base + s.cacheOffset ≤ a → a < base + s.limit →
          xs.foldl (patchSegmentOverrideSite base table) (patchSegmentOverrideSite base table m s) a =
            patchSegmentOverrideSite base table m s a := by
        intro a hlo hhi
        refine foldl_frame _ _ _ a fun m' y hy => ?_
        refine (resolves_patchSegmentOverrideSite base table m' y).uncovered (by simp) fun v hv => ?_
        rw [List.mem_singleton.mp hv]
        refine not_covers_span hsites (hviews s List.mem_cons_self)
          (hviews y (List.mem_cons_of_mem s hy)) ?_ hlo hhi
        have := hhead y hy
        show y.cacheOffset ≠ s.cacheOffset
        omega
      rcases patchSegmentOverrideSite_spec (hshape s hs) base table m with hclosed | hfolded
      · refine Or.inl ?_
        rw [hrest _ le_rfl (by omega), hclosed]
      · refine Or.inr (hfolded.congr ((hshape s hs).move base) fun a hlo hhi => ?_)
        simp only [AotSegmentOverrideSite.limit, AotSegmentOverrideSite.move] at hlo hhi
        refine hrest a hlo ?_
        unfold AotSegmentOverrideSite.limit
        omega
    · exact ih (fun y hy => hviews y (List.mem_cons_of_mem x hy)) _ hx htail
        fun y hy => hshape y (List.mem_cons_of_mem x hy)

end Patch

section Families

variable (base : ℕ) (table : AotSegmentTable) (host : PlacementHost) (sites : Fragment) (m : Memory) {a : ℕ}

theorem pops_frame (h : ∀ s ∈ sites.guardedSegmentPopSites, ¬Covers base s.view a) :
    patchAotGuardedSegmentPopSites base table host.popCounters sites.guardedSegmentPopSites m a = m a := by
  refine foldl_frame _ _ _ a fun m s hs => ?_
  refine (resolves_patchGuardedOperands base table host.popCounters m (popOperands s)).uncovered (by simp) ?_
  intro v hv
  rw [List.mem_singleton.mp hv]
  exact h s hs

theorem loads_frame (h : ∀ s ∈ sites.guardedSegmentLoadSites, ¬Covers base s.view a) :
    patchAotGuardedSegmentLoadSites base table host.loadCounters sites.guardedSegmentLoadSites m a = m a := by
  refine foldl_frame _ _ _ a fun m s hs => ?_
  refine (resolves_patchGuardedOperands base table host.loadCounters m (loadOperands s)).uncovered (by simp) ?_
  intro v hv
  rw [List.mem_singleton.mp hv]
  exact h s hs

theorem reads_frame (h : ∀ s ∈ sites.guardedSegmentReadSites, ¬Covers base s.view a) :
    patchAotGuardedSegmentReadSites base table sites.guardedSegmentReadSites m a = m a := by
  refine foldl_frame _ _ _ a fun m s hs => ?_
  refine (resolves_patchGuardedReadSite base table m s).uncovered (by simp) ?_
  intro v hv
  rw [List.mem_singleton.mp hv]
  exact h s hs

end Families

/-- The guarded slots of a fragment do not write to the operands of its override slots. -/
structure GuardedApart (sites : Fragment) (base a : ℕ) : Prop where
  pops : ∀ s ∈ sites.guardedSegmentPopSites, ¬Covers base s.view a
  loads : ∀ s ∈ sites.guardedSegmentLoadSites, ¬Covers base s.view a
  reads : ∀ s ∈ sites.guardedSegmentReadSites, ¬Covers base s.view a

theorem guardedApart {sites : Fragment} {chains : List AotIndirectInlineCacheSite}
    {map : List AotAddressMapEntry} {size : ℕ} {windows : List Window}
    (hsites : SiteSpec sites.segmentViews chains map size)
    (hoverrides : OverrideSpec sites.segmentOverrideSites sites.guardedStarts windows size)
    {s : AotSegmentOverrideSite} (hs : s ∈ sites.segmentOverrideSites) {base a : ℕ}
    (hlo : base + s.cacheOffset ≤ a) (hhi : a < base + s.limit) : GuardedApart sites base a := by
  have hview : s.view ∈ sites.segmentViews := by
    simp only [Fragment.segmentViews, List.mem_append]
    exact Or.inl (Or.inl (Or.inl (List.mem_map_of_mem hs)))
  have hoff := hoverrides.off_guarded s hs
  simp only [Fragment.guardedStarts, List.mem_append, List.mem_map] at hoff
  refine ⟨fun x hx => ?_, fun x hx => ?_, fun x hx => ?_⟩
  · refine not_covers_span hsites hview ?_ (hoff _ (Or.inl (Or.inl ⟨x, hx, rfl⟩))) hlo hhi
    simp only [Fragment.segmentViews, List.mem_append]
    exact Or.inl (Or.inl (Or.inr (List.mem_map_of_mem hx)))
  · refine not_covers_span hsites hview ?_ (hoff _ (Or.inl (Or.inr ⟨x, hx, rfl⟩))) hlo hhi
    simp only [Fragment.segmentViews, List.mem_append]
    exact Or.inl (Or.inr (List.mem_map_of_mem hx))
  · refine not_covers_span hsites hview ?_ (hoff _ (Or.inr ⟨x, hx, rfl⟩)) hlo hhi
    simp only [Fragment.segmentViews, List.mem_append]
    exact Or.inr (List.mem_map_of_mem hx)

/-- The slot at `base` is closed or folded, as far as a memory agrees on its operands. -/
theorem closedOrFolded_congr {table : AotSegmentTable} {m m' : Memory} {s : AotSegmentOverrideSite}
    (hshape : OverrideShape s) (h : m s.cacheOffset = 0xCC ∨ FoldedBy table m s)
    (hsame : ∀ a, s.cacheOffset ≤ a → a < s.limit → m' a = m a) :
    ¬Open m' s ∨ FoldedBy table m' s := by
  rcases h with hclosed | hfolded
  · refine Or.inl fun hopen => hopen.1 ?_
    have h₁ := hshape.selector_gt
    have h₂ := hshape.displacement_ge
    rw [hsame _ le_rfl (by unfold AotSegmentOverrideSite.limit; omega), hclosed]
  · exact Or.inr (hfolded.congr hshape hsame)

/-- Re-resolution folds every open override slot by its table. -/
theorem reResolveSegments_folds {sites : Fragment} {chains : List AotIndirectInlineCacheSite}
    {map : List AotAddressMapEntry} {size : ℕ} {windows : List Window}
    (hsites : SiteSpec sites.segmentViews chains map size)
    (hoverrides : OverrideSpec sites.segmentOverrideSites sites.guardedStarts windows size)
    (table : AotSegmentTable) (host : PlacementHost) (m : Memory) {s : AotSegmentOverrideSite}
    (hs : s ∈ sites.segmentOverrideSites) :
    ¬Open (reResolveSegments table host sites m) s ∨
      FoldedBy table (reResolveSegments table host sites m) s := by
  have hview : ∀ s ∈ sites.segmentOverrideSites, s.view ∈ sites.segmentViews := by
    intro s hs
    simp only [Fragment.segmentViews, List.mem_append]
    exact Or.inl (Or.inl (Or.inl (List.mem_map_of_mem hs)))
  have hpatched := patchAotSegmentOverrideSites_spec hsites hoverrides hview 0 table m hs
  have hmove : s.move 0 = s := by simp [AotSegmentOverrideSite.move]
  rw [Nat.zero_add, hmove] at hpatched
  refine closedOrFolded_congr (hoverrides.shape s hs) hpatched fun a hlo hhi => ?_
  have hapart : GuardedApart sites 0 a := guardedApart hsites hoverrides hs (by omega) (by omega)
  unfold reResolveSegments
  rw [reads_frame 0 table sites _ hapart.reads, pops_frame 0 table host sites _ hapart.pops,
    loads_frame 0 table host sites _ hapart.loads]

/-- Resolution behind `base` folds every open override slot of the image by its table. -/
theorem resolveImage_folds {image : AotCodeCacheImage} (himage : ImageSpec image.code image.addressMap)
    (hoverrides : image.code.OverridesIn) {base absolute : ℕ} {host : PlacementHost}
    {table : AotSegmentTable} {m m' : Memory} (h : resolveImage base absolute host table image m = .ok m')
    {s : AotSegmentOverrideSite} (hs : s ∈ image.code.segmentOverrideSites) :
    m' (base + s.cacheOffset) = 0xCC ∨ FoldedBy table m' (s.move base) := by
  have hview : ∀ s ∈ image.code.segmentOverrideSites, s.view ∈ image.code.segmentViews := by
    intro s hs
    simp only [Fragment.segmentViews, List.mem_append]
    exact Or.inl (Or.inl (Or.inl (List.mem_map_of_mem hs)))
  -- what follows the override patcher stays away from the slot
  have hrest : ∃ m₀, ∀ a, base + s.cacheOffset ≤ a → a < base + s.limit →
      m' a = patchAotSegmentOverrideSites base table image.code.segmentOverrideSites m₀ a := by
    unfold resolveImage at h
    simp only [bind, Except.bind, pure, Except.pure, throw, throwThe, MonadExceptOf.throw] at h
    split at h
    · contradiction
    rename_i request _
    split at h
    · contradiction
    split at h
    · contradiction
    split at h
    · contradiction
    split at h
    · contradiction
    split at h
    · contradiction
    refine ⟨resolveAotJumpTables base absolute image (resolveAotTimerSafePoints base request image m),
      fun a hlo hhi => ?_⟩
    have hapart := guardedApart himage.sites hoverrides hs hlo hhi
    have hwindows : ∀ w ∈ image.code.placementWindows, a < base + w.1 ∨ base + w.1 + w.2 ≤ a := by
      intro w hw
      have := hoverrides.off_windows s hs w hw
      omega
    rw [← Except.ok.inj h, (resolves_hle base absolute image _ _).windows_frame hwindows,
      (resolves_edges base absolute image _ _).windows_frame hwindows,
      (resolves_probes base image _ _).windows_frame hwindows,
      (resolves_returns base absolute image _ _).windows_frame hwindows]
    unfold resolveSegments
    rw [loads_frame base table host image.code _ hapart.loads,
      reads_frame base table image.code _ hapart.reads, pops_frame base table host image.code _ hapart.pops]
  obtain ⟨m₀, hsame⟩ := hrest
  have hshape := hoverrides.shape s hs
  have hlt : s.cacheOffset < s.limit := by
    have h₁ := hshape.selector_gt
    have h₂ := hshape.displacement_ge
    unfold AotSegmentOverrideSite.limit
    omega
  rcases patchAotSegmentOverrideSites_spec himage.sites hoverrides hview base table m₀ hs with hclosed | hfolded
  · exact Or.inl ((hsame _ le_rfl (by omega)).trans hclosed)
  · refine Or.inr (hfolded.congr (hshape.move base) fun a hlo hhi => hsame a hlo ?_)
    simp only [AotSegmentOverrideSite.limit, AotSegmentOverrideSite.move] at hhi ⊢
    omega

/-! ## Placements -/

/-- The override sites of a placement are laid out. -/
def OverridesLaid (p : AotCodeCachePlacement) : Prop :=
  OverrideSpec p.sites.segmentOverrideSites p.sites.guardedStarts [] p.size

theorem overridesLaid_place {env : PlaceEnvironment} {image : AotCodeCacheImage} {p : AotCodeCachePlacement}
    (himage : image.code.OverridesIn) (h : placeAotCodeCache env image = some p) : OverridesLaid p := by
  obtain ⟨base, memory, -, -, -, rfl⟩ := placeAotCodeCache_eq_some h
  obtain ⟨-, -, hsame⟩ := initializeAotPageCoherence_spec (placedImage base memory image) image.addressMap
  unfold OverridesLaid
  rw [hsame.sites, hsame.size]
  exact ⟨himage.shape, himage.inside, himage.guarded_lt, by simp, himage.apart, himage.off_guarded, by simp⟩

theorem mem_guardedStarts_registerSites {registered image : Fragment} {base g : ℕ}
    (hg : g ∈ (registerSites registered base image).guardedStarts) :
    g ∈ registered.guardedStarts ∨ ∃ g' ∈ image.guardedStarts, g = base + g' := by
  simp only [Fragment.guardedStarts, registerSites, List.map_append, List.map_map, List.mem_append,
    List.mem_map] at hg ⊢
  rcases hg with ((h | ⟨s, hs, rfl⟩) | (h | ⟨s, hs, rfl⟩)) | (h | ⟨s, hs, rfl⟩)
  · exact Or.inl (Or.inl (Or.inl h))
  · exact Or.inr ⟨s.cacheOffset, Or.inl (Or.inl ⟨s, hs, rfl⟩), rfl⟩
  · exact Or.inl (Or.inl (Or.inr h))
  · exact Or.inr ⟨s.cacheOffset, Or.inl (Or.inr ⟨s, hs, rfl⟩), rfl⟩
  · exact Or.inl (Or.inr h)
  · exact Or.inr ⟨s.cacheOffset, Or.inr ⟨s, hs, rfl⟩, rfl⟩

theorem OverridesLaid.append {p : AotCodeCachePlacement} (h : OverridesLaid p) {image : AotCodeCacheImage}
    (himage : image.code.OverridesIn) :
    OverrideSpec (registerSites p.sites p.size image.code).segmentOverrideSites
      (registerSites p.sites p.size image.code).guardedStarts [] (p.size + image.bytes.length) :=
  OverrideSpec.append h himage (fun _ hg => mem_guardedStarts_registerSites hg) (by simp)

/-- What an operation other than re-resolution does to the override sites: those from before are
kept or closed, and new ones are closed or folded by the table. -/
structure OverrideStep (table : AotSegmentTable) (p p' : AotCodeCachePlacement)
    (fresh : List AotSegmentOverrideSite) : Prop where
  laid : OverridesLaid p'
  keeps : ∀ s ∈ p.sites.segmentOverrideSites, KeepsFold p.memory p'.memory s
  sites : p'.sites.segmentOverrideSites = p.sites.segmentOverrideSites ++ fresh
  folded : ∀ s ∈ fresh, ¬Open p'.memory s ∨ FoldedBy table p'.memory s

theorem OverrideStep.of_same {table : AotSegmentTable} {p p' : AotCodeCachePlacement} (h : OverridesLaid p)
    (hsites : p'.sites.segmentOverrideSites = p.sites.segmentOverrideSites)
    (hguarded : p'.sites.guardedStarts = p.sites.guardedStarts) (hsize : p'.size = p.size)
    (hkeeps : ∀ s ∈ p.sites.segmentOverrideSites, KeepsFold p.memory p'.memory s) :
    OverrideStep table p p' [] where
  laid := by
    unfold OverridesLaid
    rw [hsites, hguarded, hsize]
    exact h
  keeps := hkeeps
  sites := by rw [hsites, List.append_nil]
  folded := by simp

section Step

variable {p : AotCodeCachePlacement}

theorem override_view {s : AotSegmentOverrideSite} (hs : s ∈ p.sites.segmentOverrideSites) :
    s.view ∈ p.sites.segmentViews := by
  simp only [Fragment.segmentViews, List.mem_append]
  exact Or.inl (Or.inl (Or.inl (List.mem_map_of_mem hs)))

/-- A guard does not reach into an override slot. -/
theorem Laid.guard_off_span (hlaid : Laid p) {s : AotSegmentOverrideSite}
    (hs : s ∈ p.sites.segmentOverrideSites) {site : AotIndirectInlineCacheSite}
    (hsite : site ∈ p.sites.indirectInlineCacheSites) {g : AotInlineCacheEntry} (hg : g ∈ siteGuards site)
    {a : ℕ} (hlo : s.cacheOffset ≤ a) (hhi : a < s.limit) : ¬GuardRegion g a := by
  intro hregion
  obtain ⟨e, he, hstart, hlimit⟩ := span_in_entry hlaid.sites (override_view hs)
  obtain ⟨e', hof⟩ := hlaid.guardOf hsite hg
  have hin := hof.inside hlaid
  have hgt := hof.compare_gt
  have hne := hlaid.sites.views_chains s.view (override_view hs) site hsite
  have hne' : e.cacheOffset ≠ e'.cacheOffset := by
    rw [← hstart, ← hof.chain.start_eq]
    exact hne
  unfold GuardRegion at hregion
  rcases hlaid.entries_ne he hof.entry hne' with h | h
  · omega
  · omega

theorem overrideStep_patch (hlaid : Laid p) (h : OverridesLaid p) (table : AotSegmentTable) (call : PatchCall) :
    OverrideStep table p (patchAotIndirectInlineCache call p).1 [] := by
  rcases patchAotIndirectInlineCache_cases call p with
    ⟨hsame, -⟩ | ⟨index, site, guard, cursor, -, hsite, -, -, hguard, -, heq⟩
  · rw [hsame]
    exact .of_same h rfl rfl rfl fun _ _ => Or.inr fun _ _ _ => rfl
  have hoff : ∀ s ∈ p.sites.segmentOverrideSites, ∀ a, s.cacheOffset ≤ a → a < s.limit →
      ¬GuardRegion guard a := fun s hs a hlo hhi =>
    hlaid.guard_off_span hs (List.mem_of_getElem? hsite) (List.mem_of_getElem? hguard) hlo hhi
  obtain ⟨e, hof⟩ := hlaid.guardOf (List.mem_of_getElem? hsite) (List.mem_of_getElem? hguard)
  have h₁ := hof.shape.immediate_ge
  obtain ⟨m, hr, -, hframe⟩ := patchGuard_frame hof.shape call { p with sites := setCursor p.sites index cursor }
    (guardLink site (chooseGuard p.memory (siteGuards site) call.guestTarget site.replaceCursor).1)
  rw [heq, hr]
  refine .of_same h rfl rfl rfl fun s hs => Or.inr fun a hlo hhi => hframe a ?_
  have := hoff s hs a hlo hhi
  unfold GuardRegion at this
  omega

/-- Traps and resets close an override slot or leave its operands alone. -/
theorem Laid.retire_keepsFold (hlaid : Laid p) (page : Word) (selected : List ℕ)
    {s : AotSegmentOverrideSite} (hs : s ∈ p.sites.segmentOverrideSites) :
    KeepsFold p.memory (resetInlineCacheGuardsTargetingPage p.size page p.sites.indirectInlineCacheSites
      (trapEntries p selected p.memory)) s := by
  obtain ⟨e, he, hstart, hlimit⟩ := span_in_entry hlaid.sites (override_view hs)
  have hreset : ∀ a, s.cacheOffset ≤ a → a < s.limit →
      resetInlineCacheGuardsTargetingPage p.size page p.sites.indirectInlineCacheSites
        (trapEntries p selected p.memory) a = trapEntries p selected p.memory a :=
    fun a hlo hhi => hlaid.resets_out page _ fun site hsite g hg => hlaid.guard_off_span hs hsite hg hlo hhi
  rcases trapEntries_cases p selected p.memory s.cacheOffset with htrap | hsame
  · refine Or.inl fun hopen => hopen.1 ?_
    by_cases hlt : s.cacheOffset < s.limit
    · rw [hreset _ le_rfl hlt, htrap]
    · rw [hlaid.resets_head page _ he hstart.ge (by omega) (by have := hlaid.start_lt_limit he; omega), htrap]
  · refine Or.inr fun a hlo hhi => ?_
    rw [hreset a hlo hhi]
    rcases Nat.eq_or_lt_of_le hlo with heq | hlt
    · rw [← heq, hsame]
    · refine trapEntries_frame selected _ fun i _ e' he' => ?_
      rintro rfl
      have := limit_le_of_lt hlaid.sites.entries_apart he (List.mem_of_getElem? he') (by omega)
      omega

theorem overrideStep_retire (hlaid : Laid p) (h : OverridesLaid p) (table : AotSegmentTable)
    (guestAddress : Word) (quarantine protectedWritable protectedExecute : Bool) :
    OverrideStep table p
      (retireAotGuestPage guestAddress quarantine protectedWritable protectedExecute p).1 [] := by
  have hkept : ∀ s ∈ p.sites.segmentOverrideSites, KeepsFold p.memory p.memory s :=
    fun _ _ => Or.inr fun _ _ _ => rfl
  unfold retireAotGuestPage
  simp only
  split
  · exact .of_same h rfl rfl rfl hkept
  split
  · exact .of_same h rfl rfl rfl hkept
  split
  · exact .of_same h rfl rfl rfl hkept
  split
  · exact .of_same h rfl rfl rfl hkept
  split
  · exact .of_same h rfl rfl rfl fun s hs => hlaid.retire_keepsFold _ _ hs
  · exact .of_same h rfl rfl rfl fun s hs => hlaid.retire_keepsFold _ _ hs

/-- A relink puts a jump over an override slot, or leaves its operands alone. -/
theorem Laid.relinkEntry_keepsFold (hlaid : Laid p) {s : AotSegmentOverrideSite}
    (hs : s ∈ p.sites.segmentOverrideSites) {m₀ m : Memory}
    (h : m s.cacheOffset = 0xE9 ∨ ∀ a, s.cacheOffset ≤ a → a < s.limit → m a = m₀ a) (fresh i : ℕ) :
    relinkEntry p fresh m i s.cacheOffset = 0xE9 ∨
      ∀ a, s.cacheOffset ≤ a → a < s.limit → relinkEntry p fresh m i a = m₀ a := by
  obtain ⟨e, he, hstart, hlimit⟩ := span_in_entry hlaid.sites (override_view hs)
  unfold relinkEntry
  cases hstale : p.addressMap[i]? with
  | none => exact h
  | some stale =>
    simp only
    split_ifs with hskip
    · exact h
    rw [not_or, not_or] at hskip
    by_cases hsame : stale.cacheOffset = s.cacheOffset
    · refine Or.inl ?_
      rw [hsame, set32_out _ _ (by omega), set_self]
    · -- the relinked entry is another one
      have hout : ∀ a, s.cacheOffset ≤ a → a < e.limit →
          a < stale.cacheOffset ∨ stale.cacheOffset + 5 ≤ a := by
        intro a hlo hhi
        have hstale' : stale.limit = stale.cacheOffset + stale.emittedLength := rfl
        rcases hlaid.entries_ne he (List.mem_of_getElem? hstale) (by omega) with h | h
        · omega
        · omega
      have hlt := hlaid.start_lt_limit he
      refine h.imp (fun hjump => ?_) fun hkept a hlo hhi => ?_
      · have := hout s.cacheOffset le_rfl (by omega)
        rw [set32_out _ _ (by omega), set_ne _ _ (by omega), hjump]
      · have := hout a hlo (by omega)
        rw [set32_out _ _ (by omega), set_ne _ _ (by omega), hkept a hlo hhi]

theorem Laid.relinkEntries_keepsFold (hlaid : Laid p) {s : AotSegmentOverrideSite}
    (hs : s ∈ p.sites.segmentOverrideSites) (guestEntry : Word) (image : AotCodeCacheImage) {m₀ m : Memory}
    (h : ∀ a, s.cacheOffset ≤ a → a < s.limit → m a = m₀ a) :
    KeepsFold m₀ (relinkEntries p guestEntry image m) s := by
  have hrelinked : relinkEntries p guestEntry image m s.cacheOffset = 0xE9 ∨
      ∀ a, s.cacheOffset ≤ a → a < s.limit → relinkEntries p guestEntry image m a = m₀ a := by
    unfold relinkEntries
    refine List.foldlRecOn (motive := fun m : Memory => m s.cacheOffset = 0xE9 ∨
      ∀ a, s.cacheOffset ≤ a → a < s.limit → m a = m₀ a) image.addressMap _ (Or.inr h) ?_
    intro m hm fresh _
    split_ifs
    · refine List.foldlRecOn (motive := fun m : Memory => m s.cacheOffset = 0xE9 ∨
        ∀ a, s.cacheOffset ≤ a → a < s.limit → m a = m₀ a)
        (p.inactiveByGuestAddress fresh.guestAddress) _ hm ?_
      intro m hm i _
      exact hlaid.relinkEntry_keepsFold hs hm _ i
    · exact hm
  exact hrelinked.imp_left fun hjump hopen => hopen.2 hjump

theorem overrideStep_append {table : Table} (hpush : PushRows table) (hlaid : Laid p) (h : OverridesLaid p)
    {emission : Host} {fuel : ℕ} {request : AppendRequest} {env : AppendEnvironment}
    {r : AotCodeCachePlacement × AotDynamicAppendResult}
    (happend : appendDynamicAotTranslation table emission fuel request env p = some r) :
    ∃ fresh, OverrideStep (request.segmentTable.getD .empty) p r.1 fresh := by
  rcases appendDynamicAotTranslation_cases happend with ⟨hsame, -⟩ | ⟨plan, image, hplan, hbuilt, -, -, rfl⟩
  · rw [hsame]
    exact ⟨[], .of_same h rfl rfl rfl fun _ _ => Or.inr fun _ _ _ => rfl⟩
  have hemittable : EmittablePlan table plan := ⟨hpush, planned_records hplan⟩
  have himage := imageSpec_buildAotCodeCacheImage hemittable hbuilt
  have hoverrides := overridesIn_buildAotCodeCacheImage hemittable hbuilt
  have hkeeps : ∀ resolved, resolveImage p.size (p.baseAddress + p.size) env.host
      (request.segmentTable.getD .empty) image
      (p.memory.setBytes p.size (closeInactiveEntries p request.guestEntry image)) = .ok resolved →
      ∀ s ∈ p.sites.segmentOverrideSites,
        KeepsFold p.memory (relinkEntries p request.guestEntry image resolved) s := by
    intro resolved hresolved s hs
    exact hlaid.relinkEntries_keepsFold hs _ _ fun a _ hhi =>
      resolveImage_before hresolved (hhi.trans_le (h.inside s hs))
  rcases publishImage_cases request env image p with
    ⟨generation, heq, -⟩ | ⟨-, memory, generation, hmemory, heq⟩ | ⟨-, resolved, hresolved, heq⟩
  · rw [heq]
    exact ⟨[], .of_same h rfl rfl rfl fun _ _ => Or.inr fun _ _ _ => rfl⟩
  · rw [heq]
    refine ⟨[], .of_same h rfl rfl rfl fun s hs => ?_⟩
    rcases hmemory with rfl | ⟨resolved, hresolved, rfl⟩
    · exact Or.inr fun a _ hhi => setBytes_out _ _ (Or.inl (hhi.trans_le (h.inside s hs)))
    · exact hkeeps resolved hresolved s hs
  · rw [heq]
    obtain ⟨-, -, hsame⟩ := registerImage_spec p
      { p with
        nextGeneration := p.nextGeneration + 1
        memory := relinkEntries p request.guestEntry image resolved }
      request p.nextGeneration image
    refine ⟨image.code.segmentOverrideSites.map (AotSegmentOverrideSite.move p.size),
      h.append hoverrides, ?_, rfl, ?_⟩
    · simp only [hsame.memory]
      exact hkeeps resolved hresolved
    · intro s hs
      obtain ⟨site, hsite, rfl⟩ := List.mem_map.mp hs
      simp only [hsame.memory]
      refine closedOrFolded_congr ((hoverrides.shape site hsite).move p.size)
        (resolveImage_folds himage hoverrides hresolved hsite) fun a hlo _ => ?_
      exact hlaid.relinkEntries_behind _ _ _ (le_trans (Nat.le_add_right _ _) hlo)

end Step

/-! ## Runs of a thread -/

/-- What happens to a thread: the guest changes its segment registers and descriptors, and the engine
works on the placement.  An append gets the table of that moment. -/
inductive ThreadEvent
  | guest (segments : SegmentState)
  | append (emission : Host) (fuel : ℕ) (request : AppendRequest) (env : AppendEnvironment)
  | retire (guestAddress : Word) (quarantine protectedWritable protectedExecute : Bool)
  | patch (call : PatchCall)
  | reResolve (host : PlacementHost) (protectedWritable : Bool)

/-- The thread behind an event; `none` while the planner of an append has not finished. -/
def ThreadEvent.apply (table : Table) (c : ThreadContext) : ThreadEvent → Option ThreadContext
  | .guest segments => some { c with segments := segments }
  | .append emission fuel request env =>
    (appendDynamicAotTranslation table emission fuel
      { request with segmentTable := some (buildAotSegmentTable c.segments) } env c.placement).map fun r =>
      { c with placement := r.1, segments := syncGuestSegmentsFromShadow c.segments }
  | .retire guestAddress quarantine protectedWritable protectedExecute =>
    some { c with
      placement :=
        (retireAotGuestPage guestAddress quarantine protectedWritable protectedExecute c.placement).1 }
  | .patch call => some { c with placement := (patchAotIndirectInlineCache call c.placement).1 }
  | .reResolve host protectedWritable => some (reResolveAotSegmentOverrides host protectedWritable c).1

/-- The override sites appends have registered, each with the table it was patched with. -/
abbrev Appended := List (AotSegmentOverrideSite × AotSegmentTable)

/-- The sites appended since the last re-resolution that patched. -/
def ThreadEvent.appended (c c' : ThreadContext) (sites : Appended) : ThreadEvent → Appended
  | .append _ _ _ _ =>
    sites ++ (c'.placement.sites.segmentOverrideSites.drop
      c.placement.sites.segmentOverrideSites.length).map fun s => (s, buildAotSegmentTable c.segments)
  | .reResolve host protectedWritable =>
    if (reResolveAotSegmentOverrides host protectedWritable c).2 = .patched then [] else sites
  | _ => sites

/-- The runs of a thread from a placement on. -/
inductive ThreadRun (table : Table) : ThreadContext → Appended → Prop
  | place {p : AotCodeCachePlacement} (segments : SegmentState) : Nonempty (Places table p) →
      ThreadRun table { placement := p, segments := segments } []
  | step {c c' : ThreadContext} {sites : Appended} {event : ThreadEvent} : ThreadRun table c sites →
      event.apply table c = some c' → ThreadRun table c' (event.appended c c' sites)

/-- What holds of the slots of a thread: an appended one that is open is folded by the table of its
append, and every other open one by the remembered table. -/
structure FoldsTracked (c : ThreadContext) (sites : Appended) : Prop where
  laid : Laid c.placement
  overrides : OverridesLaid c.placement
  registered : ∀ x ∈ sites, x.1 ∈ c.placement.sites.segmentOverrideSites
  appended : ∀ x ∈ sites, Open c.placement.memory x.1 → FoldedBy x.2 c.placement.memory x.1
  remembered : c.segmentResolutionsInitialized = true →
    ∀ s ∈ c.placement.sites.segmentOverrideSites, (∀ x ∈ sites, x.1 ≠ s) →
      Open c.placement.memory s → FoldedBy c.resolvedSegments c.placement.memory s

namespace FoldsTracked

variable {c : ThreadContext} {sites : Appended}

/-- An operation other than re-resolution. -/
theorem operation (h : FoldsTracked c sites) {table : AotSegmentTable} {p' : AotCodeCachePlacement}
    {fresh : List AotSegmentOverrideSite} (hlaid : Laid p')
    (hstep : OverrideStep table c.placement p' fresh) (segments : SegmentState) :
    FoldsTracked { c with placement := p', segments := segments } (sites ++ fresh.map fun s => (s, table)) where
  laid := hlaid
  overrides := hstep.laid
  registered := by
    intro x hx
    rw [hstep.sites]
    rcases List.mem_append.mp hx with hx | hx
    · exact List.mem_append_left _ (h.registered x hx)
    · obtain ⟨s, hs, rfl⟩ := List.mem_map.mp hx
      exact List.mem_append_right _ hs
  appended := by
    intro x hx hopen
    rcases List.mem_append.mp hx with hx | hx
    · have hmem := h.registered x hx
      obtain ⟨hopen', hfold⟩ := (hstep.keeps x.1 hmem).open (h.overrides.shape x.1 hmem) hopen
      exact hfold x.2 (h.appended x hx hopen')
    · obtain ⟨s, hs, rfl⟩ := List.mem_map.mp hx
      exact (hstep.folded s hs).resolve_left fun hclosed => hclosed hopen
  remembered := by
    intro hinitialized s hs hnew hopen
    rw [hstep.sites] at hs
    rcases List.mem_append.mp hs with hs | hs
    · obtain ⟨hopen', hfold⟩ := (hstep.keeps s hs).open (h.overrides.shape s hs) hopen
      refine hfold _ (h.remembered hinitialized s hs (fun x hx => ?_) hopen')
      exact hnew x (List.mem_append_left _ hx)
    · exact absurd rfl (hnew (s, table) (List.mem_append_right _ (List.mem_map.mpr ⟨s, hs, rfl⟩)))

/-- Another segment state. -/
theorem guest (h : FoldsTracked c sites) (segments : SegmentState) :
    FoldsTracked { c with segments := segments } sites :=
  ⟨h.laid, h.overrides, h.registered, h.appended, h.remembered⟩

/-- A re-resolution that processes no site leaves the placement as it is: an override site always
counts. -/
theorem reResolve_unprocessed (h : FoldsTracked c sites) (table : AotSegmentTable) (host : PlacementHost)
    {protectedWritable : Bool} (hcount : reResolvedSiteCount protectedWritable c.placement = 0) :
    reResolveWin32AotSegmentOverrides table host protectedWritable c.placement = c.placement := by
  unfold reResolvedSiteCount at hcount
  unfold reResolveWin32AotSegmentOverrides
  by_cases hgives : ¬c.placement.placed ∨ ¬hasSegmentSites c.placement.sites ∨ ¬protectedWritable
  · rw [if_pos hgives]
  · rw [if_neg hgives] at hcount
    have hfilter : c.placement.sites.segmentOverrideSites.filter (fun s => s.segmentRegister < 6) =
        c.placement.sites.segmentOverrideSites := by
      rw [List.filter_eq_self]
      intro s hs
      exact decide_eq_true (h.overrides.shape s hs).segment_lt
    rw [hfilter] at hcount
    simp only [Nat.add_eq_zero_iff, List.length_eq_zero_iff] at hcount
    obtain ⟨⟨⟨hoverrides, hloads⟩, hpops⟩, hreads⟩ := hcount
    have hnone : hasSegmentSites c.placement.sites = false := by
      simp [hasSegmentSites, hoverrides, hloads, hpops, hreads]
    exact absurd (Or.inr (Or.inl (by rw [hnone]; decide))) hgives

/-- What a re-resolution that processes a site leaves. -/
theorem reResolve_processed (h : FoldsTracked c sites) (table : AotSegmentTable) (host : PlacementHost)
    {protectedWritable : Bool} (hcount : reResolvedSiteCount protectedWritable c.placement ≠ 0) :
    reResolveWin32AotSegmentOverrides table host protectedWritable c.placement =
        { c.placement with memory := reResolveSegments table host c.placement.sites c.placement.memory } ∧
      ∀ s ∈ c.placement.sites.segmentOverrideSites,
        Open (reResolveSegments table host c.placement.sites c.placement.memory) s →
        FoldedBy table (reResolveSegments table host c.placement.sites c.placement.memory) s := by
  unfold reResolvedSiteCount at hcount
  unfold reResolveWin32AotSegmentOverrides
  by_cases hgives : ¬c.placement.placed ∨ ¬hasSegmentSites c.placement.sites ∨ ¬protectedWritable
  · rw [if_pos hgives] at hcount
    exact absurd rfl hcount
  · rw [if_neg hgives]
    refine ⟨rfl, fun s hs hopen => ?_⟩
    exact (reResolveSegments_folds h.laid.sites h.overrides table host c.placement.memory hs).resolve_left
      fun hclosed => hclosed hopen

/-- A re-resolution keeps the slots tracked. -/
theorem reResolve (h : FoldsTracked c sites) (host : PlacementHost) (protectedWritable : Bool) :
    FoldsTracked (reResolveAotSegmentOverrides host protectedWritable c).1
      (if (reResolveAotSegmentOverrides host protectedWritable c).2 = .patched then [] else sites) := by
  unfold reResolveAotSegmentOverrides
  by_cases hsites : c.placement.sites.segmentOverrideSites.isEmpty &&
    c.placement.sites.guardedSegmentPopSites.isEmpty
  · rw [if_pos hsites, if_neg (by simp)]
    exact h
  rw [if_neg hsites]
  simp only
  by_cases hchanged : c.segmentsChanged = true
  · rw [if_neg (by rw [hchanged]; decide)]
    by_cases hcount : reResolvedSiteCount protectedWritable c.placement = 0
    · rw [if_pos hcount, if_neg (by simp), h.reResolve_unprocessed _ host hcount]
      exact h.guest _
    · obtain ⟨hplacement, hfolded⟩ :=
        h.reResolve_processed (buildAotSegmentTable c.segments) host hcount
      rw [if_neg hcount, if_pos rfl, hplacement]
      exact ⟨⟨h.laid.sites, h.laid.states⟩, h.overrides, by simp, by simp,
        fun _ s hs _ hopen => hfolded s hs hopen⟩
  · rw [if_pos hchanged, if_neg (by simp)]
    exact h.guest _

/-- One event. -/
theorem event {table : Table} (hpush : PushRows table) (h : FoldsTracked c sites) {e : ThreadEvent}
    {c' : ThreadContext} (happly : e.apply table c = some c') : FoldsTracked c' (e.appended c c' sites) := by
  cases e with
  | guest segments =>
    rw [← Option.some.inj happly]
    exact h.guest segments
  | append emission fuel request env =>
    obtain ⟨r, hr, rfl⟩ := Option.map_eq_some_iff.mp happly
    obtain ⟨fresh, hstep⟩ := overrideStep_append hpush h.laid h.overrides hr
    have hoperation : (Operation.append emission fuel
        { request with segmentTable := some (buildAotSegmentTable c.segments) } env).apply table
          c.placement = some (r.1, r.2.status.unsafeFailure) := by
      rw [Operation.apply, hr]
      rfl
    have hlaid : Laid r.1 := h.laid.step hpush hoperation
    have hdrop : r.1.sites.segmentOverrideSites.drop c.placement.sites.segmentOverrideSites.length = fresh := by
      rw [hstep.sites, List.drop_left]
    show FoldsTracked _ (sites ++ (r.1.sites.segmentOverrideSites.drop _).map _)
    rw [hdrop]
    exact h.operation hlaid hstep _
  | retire guestAddress quarantine protectedWritable protectedExecute =>
    rw [← Option.some.inj happly]
    have hlaid := h.laid.step hpush
      (apply_retire table c.placement guestAddress quarantine protectedWritable protectedExecute)
    have := h.operation hlaid (overrideStep_retire h.laid h.overrides .empty guestAddress quarantine
      protectedWritable protectedExecute) c.segments
    rw [List.map_nil, List.append_nil] at this
    exact this
  | patch call =>
    rw [← Option.some.inj happly]
    have hlaid := h.laid.step hpush (apply_patch table c.placement call)
    have := h.operation hlaid (overrideStep_patch h.laid h.overrides .empty call) c.segments
    rw [List.map_nil, List.append_nil] at this
    exact this
  | reResolve host protectedWritable =>
    rw [← Option.some.inj happly]
    exact h.reResolve host protectedWritable

end FoldsTracked

theorem ThreadRun.tracked {table : Table} (hpush : PushRows table) {c : ThreadContext} {sites : Appended}
    (h : ThreadRun table c sites) : FoldsTracked c sites := by
  induction h with
  | place segments hp =>
    have himage := overridesIn_buildAotCodeCacheImage ⟨hpush, planned_records hp.some.planned⟩ hp.some.built
    exact ⟨laid_place (hp.some.imageSpec hpush) hp.some.placed, overridesLaid_place himage hp.some.placed,
      by simp, by simp, by simp⟩
  | step _ happly ih => exact ih.event hpush happly

/-- In every run, when a re-resolution does not fail, every open override slot compares with the
current selector and adds the current base if and only if the current table differs from the
remembered one, or every slot that was appended since and is still open was folded alike. -/
theorem reResolve_current_iff {table : Table} (hpush : PushRows table) {c : ThreadContext}
    {sites : Appended} (hrun : ThreadRun table c sites) (host : PlacementHost) (protectedWritable : Bool)
    (hok : (reResolveAotSegmentOverrides host protectedWritable c).2 ≠ .failed) :
    (∀ s ∈ (reResolveAotSegmentOverrides host protectedWritable c).1.placement.sites.segmentOverrideSites,
      Open (reResolveAotSegmentOverrides host protectedWritable c).1.placement.memory s →
      FoldedBy (buildAotSegmentTable c.segments)
        (reResolveAotSegmentOverrides host protectedWritable c).1.placement.memory s) ↔
    (c.segmentsChanged = false →
      ∀ x ∈ sites, Open c.placement.memory x.1 → SameFold x.1 x.2 c.resolvedSegments) := by
  have h := hrun.tracked hpush
  unfold reResolveAotSegmentOverrides at hok ⊢
  by_cases hsites : c.placement.sites.segmentOverrideSites.isEmpty &&
    c.placement.sites.guardedSegmentPopSites.isEmpty
  · -- no override slot at all
    rw [if_pos hsites]
    rw [Bool.and_eq_true, List.isEmpty_iff] at hsites
    have hnone : sites = [] := by
      rw [List.eq_nil_iff_forall_not_mem]
      intro x hx
      have := h.registered x hx
      rw [hsites.1] at this
      cases this
    simp [hsites.1, hnone]
  rw [if_neg hsites] at hok ⊢
  simp only at hok ⊢
  by_cases hchanged : c.segmentsChanged = true
  · rw [if_neg (by rw [hchanged]; decide)] at hok ⊢
    by_cases hcount : reResolvedSiteCount protectedWritable c.placement = 0
    · rw [if_pos hcount] at hok
      exact absurd rfl hok
    · obtain ⟨hplacement, hfolded⟩ :=
        h.reResolve_processed (buildAotSegmentTable c.segments) host hcount
      rw [if_neg hcount, hplacement]
      refine ⟨fun _ hsame => ?_, fun _ => hfolded⟩
      rw [hchanged] at hsame
      cases hsame
  · -- skipped: the remembered table is the current one
    rw [if_pos hchanged]
    rw [Bool.not_eq_true] at hchanged
    obtain ⟨hinitialized, hresolved⟩ := c.resolved_of_unchanged hchanged
    rw [← hresolved]
    constructor
    · intro hcurrent _ x hx hopen
      exact (h.appended x hx hopen).iff_sameFold.mp (hcurrent x.1 (h.registered x hx) hopen)
    · intro hcondition s hs hopen
      by_cases hnew : ∃ x ∈ sites, x.1 = s
      · obtain ⟨x, hx, rfl⟩ := hnew
        exact (h.appended x hx hopen).iff_sameFold.mpr (hcondition hchanged x hx hopen)
      · exact h.remembered hinitialized s hs (fun x hx heq => hnew ⟨x, hx, heq⟩) hopen

/-! ## A slot appended in between -/

/-- Two loops over `mov eax, es:[eax]`, at `0x1000` and at `0x1010`. -/
def accessBytes : List Byte :=
  [0x26, 0x8B, 0x00, 0xE9, 0xF8, 0xFF, 0xFF, 0xFF] ++ List.replicate 8 0x90 ++
    [0x26, 0x8B, 0x00, 0xE9, 0xF8, 0xFF, 0xFF, 0xFF] ++ List.replicate 40 0x90

/-- The guest with both loops. -/
def accessSource : RelocatedRuntimeImage :=
  { valid := true
    objects := [{ relocatedBaseAddress := 0x1000, virtualSize := 64, flags := 0, bytes := accessBytes }]
    codeModeRanges := [] }

/-- The plan of the first loop. -/
def accessPlan : AotTranslationPlan :=
  (buildAotTranslationPlanFromEntry controlTable 8 accessSource 0x1000 []).get (by decide +kernel)

/-- The image of the first loop. -/
def accessImage : AotCodeCacheImage :=
  (buildAotCodeCacheImage ⟨controlTable, {}, {}⟩ accessPlan).get (by decide +kernel)

/-- The first loop placed. -/
def accessPlacement : AotCodeCachePlacement :=
  (placeAotCodeCache ⟨some 0x400000, true, {}⟩ accessImage).get (by decide +kernel)

/-- How it was placed. -/
def accessPlaces : Places controlTable accessPlacement where
  fuel := 8
  source := accessSource
  entry := 0x1000
  excluded := []
  emission := {}
  options := {}
  env := ⟨some 0x400000, true, {}⟩
  plan := accessPlan
  image := accessImage
  planned := (Option.some_get _).symm
  built := (Option.some_get _).symm
  placed := (Option.some_get _).symm

/-- Two data segments; ES holds the given selector. -/
def accessSegments (es : BitVec 16) : SegmentState :=
  { guestSelectors := fun _ => 0
    guestAddresses := fun _ => 0
    shadowSelectors := some ⟨0x5000, fun seg => if seg = 0 then es else 0⟩
    selectorTable :=
      { descriptors :=
          [{ selector := 0x24, base := 0x100000, limit := 0xFFFF },
            { selector := 0x2C, base := 0x200000, limit := 0xFFFF }] } }

/-- The thread with the first segment in ES. -/
def accessThread : ThreadContext := { placement := accessPlacement, segments := accessSegments 0x24 }

/-- The thread with the slot folded and the second segment in ES. -/
def switchedThread : ThreadContext :=
  { (reResolveAotSegmentOverrides {} true accessThread).1 with segments := accessSegments 0x2C }

/-- The append of the second loop. -/
def accessAppend : ThreadEvent :=
  .append {} 8 { runtimeBase := 0x1000, runtimeSize := 64, arena := accessBytes, guestEntry := 0x1010 } {}

/-- The thread with the second loop appended. -/
def appendedThread : ThreadContext := (accessAppend.apply controlTable switchedThread).get (by decide +kernel)

/-- The thread with the first segment back in ES. -/
def returnedThread : ThreadContext := { appendedThread with segments := accessSegments 0x24 }

theorem accessThread_run : ThreadRun controlTable accessThread [] := .place _ ⟨accessPlaces⟩

theorem returnedThread_run : ∃ sites, ThreadRun controlTable returnedThread sites := by
  have hresolve : (ThreadEvent.reResolve {} true).apply controlTable accessThread =
      some (reResolveAotSegmentOverrides {} true accessThread).1 := rfl
  have hswitch : (ThreadEvent.guest (accessSegments 0x2C)).apply controlTable
      (reResolveAotSegmentOverrides {} true accessThread).1 = some switchedThread := rfl
  have happend : accessAppend.apply controlTable switchedThread = some appendedThread :=
    (Option.some_get _).symm
  have hreturn : (ThreadEvent.guest (accessSegments 0x24)).apply controlTable appendedThread =
      some returnedThread := rfl
  exact ⟨_, (((accessThread_run.step hresolve).step hswitch).step happend).step hreturn⟩

attribute [irreducible] accessPlan accessImage accessPlacement appendedThread

/-- The first re-resolution folds the slot. -/
theorem reResolve_current_access :
    (reResolveAotSegmentOverrides {} true accessThread).2 = .patched ∧
    ∀ s ∈ (reResolveAotSegmentOverrides {} true accessThread).1.placement.sites.segmentOverrideSites,
      Open (reResolveAotSegmentOverrides {} true accessThread).1.placement.memory s →
      FoldedBy (buildAotSegmentTable accessThread.segments)
        (reResolveAotSegmentOverrides {} true accessThread).1.placement.memory s := by
  have hstatus : (reResolveAotSegmentOverrides {} true accessThread).2 = .patched := by decide +kernel
  refine ⟨hstatus, ?_⟩
  refine (reResolve_current_iff pushRows_controlTable accessThread_run {} true ?_).mpr ?_
  · rw [hstatus]
    decide
  · intro _ x hx
    cases hx

/-- The appended slot still compares with the other selector when a re-resolution finds the table
unchanged. -/
theorem reResolve_skips_appended :
    ∃ c sites, ThreadRun controlTable c sites ∧
      (reResolveAotSegmentOverrides {} true c).2 = .unchanged ∧
      ∃ s ∈ (reResolveAotSegmentOverrides {} true c).1.placement.sites.segmentOverrideSites,
        Open (reResolveAotSegmentOverrides {} true c).1.placement.memory s ∧
        ¬FoldedBy (buildAotSegmentTable c.segments)
          (reResolveAotSegmentOverrides {} true c).1.placement.memory s := by
  obtain ⟨sites, hrun⟩ := returnedThread_run
  have hslot : (reResolveAotSegmentOverrides {} true returnedThread).1.placement.sites.segmentOverrideSites.any
      (fun s => decide (s.segmentRegister = 0) &&
        decide ((reResolveAotSegmentOverrides {} true returnedThread).1.placement.memory s.cacheOffset = 0x9C) &&
        decide ((reResolveAotSegmentOverrides {} true returnedThread).1.placement.memory.get16
          s.guardSelectorOffset = 0x2C)) = true := by
    decide +kernel
  obtain ⟨s, hs, hslot⟩ := List.any_eq_true.mp hslot
  simp only [Bool.and_eq_true, decide_eq_true_eq] at hslot
  obtain ⟨⟨hsegment, hbyte⟩, hselector⟩ := hslot
  refine ⟨returnedThread, sites, hrun, by decide +kernel, s, hs, ?_, ?_⟩
  · unfold Open
    rw [hbyte]
    decide
  · rintro ⟨r, hr, hcompare, -⟩
    have hcurrent : ((buildAotSegmentTable returnedThread.segments).find 0).map AotSegmentResolution.selector =
        some 0x24 := by decide +kernel
    rw [hsegment] at hr
    rw [hr, Option.map_some, ← hcompare, hselector] at hcurrent
    exact absurd hcurrent (by decide)

end Repiu.Engine
