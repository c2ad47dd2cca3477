import Repiu.Engine.Operations
import Repiu.Runtime.Layout

/-!
# What resolution writes

Resolving the sites of an image writes the placement operands and the segment
slots.  A segment slot that the descriptors do not open only has its first byte
changed, to a trap.
-/

namespace Repiu.Engine

open Repiu.Runtime Repiu.Memory

/-! ## The relation -/

/-- The bytes a segment slot's patcher may write, the slot lying `base` further up. -/
def Covers (base : ℕ) (v : PatchView) (a : ℕ) : Prop :=
  a = base + v.start ∨ (base + v.start ≤ a ∧ a < base + v.start + v.opening) ∨
    ∃ w ∈ v.windows, base + w.1 ≤ a ∧ a < base + w.1 + w.2

/-- From `m` to `m'` only the windows are written, and the segment slots: in full where they are
opened, and a trap over the first byte elsewhere. -/
def Resolves (base : ℕ) (windows : List Window) (views : List PatchView) (opened : ℕ → Bool)
    (m m' : Memory) : Prop :=
  ∀ a, (∀ w ∈ windows, a < base + w.1 ∨ base + w.1 + w.2 ≤ a) →
    (∀ v ∈ views, Covers base v a → opened v.start = false) →
    m' a = m a ∨ (m' a = 0xCC ∧ ∃ v ∈ views, a = base + v.start)

namespace Resolves

variable {base : ℕ} {windows windows' : List Window} {views views' : List PatchView}
  {opened opened' : ℕ → Bool} {m m' m'' : Memory}

theorem refl : Resolves base windows views opened m m := fun _ _ _ => Or.inl rfl

theorem trans (h : Resolves base windows views opened m m') (h' : Resolves base windows views opened m' m'') :
    Resolves base windows views opened m m'' := by
  intro a hw hv
  rcases h' a hw hv with h' | h'
  · rw [h']
    exact h a hw hv
  · exact Or.inr h'

theorem mono (h : Resolves base windows views opened m m') (hwindows : windows ⊆ windows')
    (hviews : views ⊆ views') (hopened : ∀ v ∈ views, opened v.start = true → opened' v.start = true) :
    Resolves base windows' views' opened' m m' := by
  intro a hw hv
  have := h a (fun w hmem => hw w (hwindows hmem)) fun v hmem hcov => ?_
  · rcases this with h | ⟨h, v, hmem, hstart⟩
    · exact Or.inl h
    · exact Or.inr ⟨h, v, hviews hmem, hstart⟩
  · have hfalse := hv v (hviews hmem) hcov
    by_contra hne
    rw [Bool.not_eq_false] at hne
    rw [hopened v hmem hne] at hfalse
    contradiction

/-- A fold of steps. -/
theorem foldl {α : Type} {f : Memory → α → Memory} {l : List α}
    (h : ∀ m, ∀ x ∈ l, Resolves base windows views opened m (f m x)) (m : Memory) :
    Resolves base windows views opened m (l.foldl f m) := by
  induction l generalizing m with
  | nil => exact refl
  | cons x xs ih =>
    exact (h m x List.mem_cons_self).trans (ih (fun m y hy => h m y (List.mem_cons_of_mem x hy)) _)

/-- A write into a window. -/
theorem write {w : Window} (hw : w ∈ windows) {bytes : List Byte} (hlen : bytes.length = w.2) :
    Resolves base windows views opened m (m.setBytes (base + w.1) bytes) := by
  intro a hout _
  refine Or.inl (setBytes_out m bytes ?_)
  have := hout w hw
  omega

theorem write32 {offset : ℕ} (hw : (offset, 4) ∈ windows) (value : Word) :
    Resolves base windows views opened m (m.set32 (base + offset) value) :=
  write hw rfl

end Resolves

/-! ## Segment slots -/

/-- A write to a byte the slot covers, while the slot is opened. -/
theorem resolves_opened {base : ℕ} {v : PatchView} {m m' : Memory}
    (h : ∀ a, ¬Covers base v a → m' a = m a) : Resolves base [] [v] (fun _ => true) m m' := by
  intro a _ hv
  refine Or.inl (h a fun hcov => ?_)
  have := hv v (List.mem_singleton_self v) hcov
  contradiction

/-- The trap over a slot that is not opened. -/
theorem resolves_closed (base : ℕ) (v : PatchView) (m : Memory) :
    Resolves base [] [v] (fun _ => false) m (m.set (base + v.start) 0xCC) := by
  intro a _ _
  by_cases ha : a = base + v.start
  · rw [ha]
    exact Or.inr ⟨set_self m _ _, v, List.mem_singleton_self v, rfl⟩
  · exact Or.inl (set_ne m _ ha)

theorem resolves_patchSegmentOverrideSite (base : ℕ) (table : AotSegmentTable) (m : Memory)
    (site : AotSegmentOverrideSite) :
    Resolves base [] [site.view] (fun _ => overrideOpens table site) m
      (patchSegmentOverrideSite base table m site) := by
  unfold patchSegmentOverrideSite overrideOpens
  cases table.find site.segmentRegister with
  | none => exact Resolves.refl
  | some r =>
    by_cases hclosed : r.shadowAddress = 0 ∨ r.policy ≠ .kNativeFolded
    · have hopens : (r.shadowAddress ≠ 0 && r.policy = .kNativeFolded) = false := by
        rcases hclosed with h | h <;> simp [h]
      simp only [hclosed, if_true, hopens]
      exact resolves_closed base site.view m
    · have hopens : (r.shadowAddress ≠ 0 && r.policy = .kNativeFolded) = true := by
        rw [not_or, not_not] at hclosed
        simp only [ne_eq, hclosed.1, hclosed.2, not_false_eq_true, decide_true, Bool.and_self]
      simp only [hclosed, if_false, hopens]
      refine resolves_opened fun a ha => ?_
      simp only [Covers, AotSegmentOverrideSite.view, List.mem_cons, List.not_mem_nil, or_false,
        exists_eq_or_imp, exists_eq_left, not_or, not_and] at ha
      obtain ⟨h₀, h₁, h₂, h₃, h₄⟩ := ha
      rw [set32_out _ _ (by omega), setBytes_out _ _ (by rw [le16_length]; omega),
        set32_out _ _ (by omega), setBytes_out _ _ (by omega)]

theorem resolves_patchGuardedReadSite (base : ℕ) (table : AotSegmentTable) (m : Memory)
    (site : AotGuardedSegmentReadSite) :
    Resolves base [] [site.view]
      (fun _ => (guardedResolution table site.segmentRegister site.guardPrologue true).isSome) m
      (patchGuardedReadSite base table m site) := by
  unfold patchGuardedReadSite
  cases guardedResolution table site.segmentRegister site.guardPrologue true with
  | none => exact resolves_closed base site.view m
  | some r =>
    refine resolves_opened fun a ha => ?_
    simp only [Covers, AotGuardedSegmentReadSite.view, List.mem_cons, List.not_mem_nil, or_false,
      exists_eq_or_imp, exists_eq_left, not_or, not_and] at ha
    obtain ⟨h₀, h₁, h₂, h₃⟩ := ha
    simp only
    rw [set32_out _ _ (by omega), set32_out _ _ (by omega), setBytes_out _ _ (by omega)]

/-- The view of a guarded load or pop slot, as its patcher reads it. -/
def GuardedOperands.view (s : GuardedOperands) : PatchView :=
  ⟨s.cacheOffset, s.guardPrologue.length,
    guardedWindows s.shadowAddressOffset s.pair0AddressOffset s.pair1AddressOffset s.shadowStoreOffset
      s.successCounterAddressOffset s.fallbackCounterAddressOffset s.hasCounterOperands⟩

theorem resolves_patchGuardedOperands (base : ℕ) (table : AotSegmentTable) (counters : CounterAddresses)
    (m : Memory) (site : GuardedOperands) :
    Resolves base [] [site.view]
      (fun _ => (guardedResolution table site.segmentRegister site.guardPrologue
        (counters.ready site.hasCounterOperands)).isSome) m
      (patchGuardedOperands base table counters m site) := by
  unfold patchGuardedOperands
  cases guardedResolution table site.segmentRegister site.guardPrologue
    (counters.ready site.hasCounterOperands) with
  | none => exact resolves_closed base site.view m
  | some r =>
    refine resolves_opened fun a ha => ?_
    have hwin : ∀ offset, (offset, 4) ∈ site.view.windows → a < base + offset ∨ base + offset + 4 ≤ a := by
      intro offset hmem
      by_contra hin
      exact ha (Or.inr (Or.inr ⟨_, hmem, by omega, by omega⟩))
    have hopen : a < base + site.cacheOffset ∨ base + site.cacheOffset + site.guardPrologue.length ≤ a := by
      by_contra hin
      exact ha (Or.inr (Or.inl ⟨by simp only [GuardedOperands.view]; omega,
        by simp only [GuardedOperands.view]; omega⟩))
    simp only [GuardedOperands.view, guardedWindows, List.mem_append, List.mem_singleton] at hwin
    have hshadow := hwin site.shadowAddressOffset (by simp)
    have hopened : ((m.setBytes (base + site.cacheOffset) site.guardPrologue).set32
        (base + site.shadowAddressOffset) r.shadowAddress) a = m a := by
      rw [set32_out _ _ hshadow, setBytes_out _ _ hopen]
    simp only
    split_ifs with hcounters hpair hpair
    · rw [set32_out _ _ (hwin _ (by simp [hcounters])), set32_out _ _ (hwin _ (by simp [hcounters])),
        set32_out _ _ (hwin _ (by simp [hpair])), set32_out _ _ (hwin _ (by simp [hpair])),
        set32_out _ _ (hwin _ (by simp [hpair])), hopened]
    · rw [set32_out _ _ (hwin _ (by simp [hcounters])), set32_out _ _ (hwin _ (by simp [hcounters])),
        hopened]
    · rw [set32_out _ _ (hwin _ (by simp [hpair])), set32_out _ _ (hwin _ (by simp [hpair])),
        set32_out _ _ (hwin _ (by simp [hpair])), hopened]
    · exact hopened

/-! ## All segment slots -/

/-- Whether the descriptors open a segment slot that starts at the offset. -/
def segmentOpens (table : AotSegmentTable) (host : PlacementHost) (sites : Fragment) (start : ℕ) : Bool :=
  (sites.segmentOverrideSites.any fun s => s.cacheOffset = start && overrideOpens table s) ||
  (sites.guardedSegmentPopSites.any fun s => s.cacheOffset = start &&
    (guardedResolution table s.segmentRegister s.guardPrologue
      (host.popCounters.ready s.hasCounterOperands)).isSome) ||
  (sites.guardedSegmentLoadSites.any fun s => s.cacheOffset = start &&
    (guardedResolution table s.segmentRegister s.guardPrologue
      (host.loadCounters.ready s.hasCounterOperands)).isSome) ||
  (sites.guardedSegmentReadSites.any fun s => s.cacheOffset = start &&
    (guardedResolution table s.segmentRegister s.guardPrologue true).isSome)

section Families

variable (base : ℕ) (table : AotSegmentTable) (host : PlacementHost) (sites : Fragment) (m : Memory)

variable {base table host sites m} in
/-- The sites of one kind, each of them a segment slot that opens as its patcher opens it. -/
theorem resolves_family {α : Type} {xs : List α} {view : α → PatchView} {opens : α → Bool}
    {patch : Memory → α → Memory} (hpatch : ∀ m x, Resolves base [] [view x] (fun _ => opens x) m (patch m x))
    (hviews : ∀ v ∈ xs.map view, v ∈ sites.segmentViews)
    (hopens : ∀ start, (xs.any fun x => (view x).start = start && opens x) = true →
      segmentOpens table host sites start = true) :
    Resolves base [] sites.segmentViews (segmentOpens table host sites) m (xs.foldl patch m) := by
  refine Resolves.foldl (fun m x hx => ?_) m
  refine (hpatch m x).mono (List.nil_subset _) ?_ ?_
  · intro v hv
    rw [List.mem_singleton.mp hv]
    exact hviews _ (List.mem_map_of_mem hx)
  · intro v hv hopen
    rw [List.mem_singleton.mp hv]
    exact hopens _ (List.any_eq_true.mpr ⟨x, hx, by simpa using hopen⟩)

theorem resolves_overrides :
    Resolves base [] sites.segmentViews (segmentOpens table host sites) m
      (patchAotSegmentOverrideSites base table sites.segmentOverrideSites m) := by
  refine resolves_family (resolves_patchSegmentOverrideSite base table) ?_ fun start h => ?_
  · exact fun v hv => List.mem_append_left _ (List.mem_append_left _ (List.mem_append_left _ hv))
  · rw [segmentOpens, Bool.or_eq_true, Bool.or_eq_true, Bool.or_eq_true]
    exact Or.inl (Or.inl (Or.inl h))

theorem resolves_pops :
    Resolves base [] sites.segmentViews (segmentOpens table host sites) m
      (patchAotGuardedSegmentPopSites base table host.popCounters sites.guardedSegmentPopSites m) := by
  refine resolves_family (fun m s => resolves_patchGuardedOperands base table host.popCounters m (popOperands s)) ?_
    fun start h => ?_
  · exact fun v hv => List.mem_append_left _ (List.mem_append_left _ (List.mem_append_right _ hv))
  · rw [segmentOpens, Bool.or_eq_true, Bool.or_eq_true, Bool.or_eq_true]
    exact Or.inl (Or.inl (Or.inr h))

theorem resolves_loads :
    Resolves base [] sites.segmentViews (segmentOpens table host sites) m
      (patchAotGuardedSegmentLoadSites base table host.loadCounters sites.guardedSegmentLoadSites m) := by
  refine resolves_family (fun m s => resolves_patchGuardedOperands base table host.loadCounters m (loadOperands s)) ?_
    fun start h => ?_
  · exact fun v hv => List.mem_append_left _ (List.mem_append_right _ hv)
  · rw [segmentOpens, Bool.or_eq_true, Bool.or_eq_true]
    exact Or.inl (Or.inr h)

theorem resolves_reads :
    Resolves base [] sites.segmentViews (segmentOpens table host sites) m
      (patchAotGuardedSegmentReadSites base table sites.guardedSegmentReadSites m) := by
  refine resolves_family (resolves_patchGuardedReadSite base table) ?_ fun start h => ?_
  · exact fun v hv => List.mem_append_right _ hv
  · rw [segmentOpens, Bool.or_eq_true]
    exact Or.inr h

/-- `ReResolveWin32AotSegmentOverrides` on the bytes. -/
theorem resolves_reResolveSegments :
    Resolves 0 [] sites.segmentViews (segmentOpens table host sites) m
      (reResolveSegments table host sites m) :=
  (((resolves_overrides 0 table host sites m).trans (resolves_loads 0 table host sites _)).trans
    (resolves_pops 0 table host sites _)).trans (resolves_reads 0 table host sites _)

end Families

/-! ## Whole images -/

section Image

variable (base absolute : ℕ) (table : AotSegmentTable) (host : PlacementHost) (image : AotCodeCacheImage)
  (m : Memory)

/-- What resolving the image may write. -/
abbrev ResolvesImage (m m' : Memory) : Prop :=
  Resolves base image.code.placementWindows image.code.segmentViews
    (segmentOpens table host image.code) m m'

theorem resolves_resolveSegments :
    ResolvesImage base table host image m (resolveSegments base host table image m) := by
  have h := (((resolves_overrides base table host image.code m).trans
    (resolves_pops base table host image.code _)).trans
    (resolves_reads base table host image.code _)).trans (resolves_loads base table host image.code _)
  exact h.mono (List.nil_subset _) (List.Subset.refl _) fun _ _ h => h

section Windows

variable {views : List PatchView} {opened : ℕ → Bool}

theorem resolves_timers (request : Word) :
    Resolves base image.code.placementWindows views opened m
      (resolveAotTimerSafePoints base request image m) := by
  refine Resolves.foldl (fun m s hs => Resolves.write32 ?_ _) m
  simp only [Fragment.placementWindows, List.mem_append, List.mem_flatMap]
  exact Or.inl (Or.inl (Or.inl (Or.inl (Or.inl ⟨s, hs, by simp⟩))))

theorem jumpTableWords_length (site : AotJumpTableSite) :
    (jumpTableWords absolute image site).length = 4 * site.guestTargets.length := by
  simp only [jumpTableWords, List.length_flatMap, le32_length]
  rw [List.map_const', List.sum_replicate, smul_eq_mul, Nat.mul_comm]

theorem resolves_jumpTables :
    Resolves base image.code.placementWindows views opened m
      (resolveAotJumpTables base absolute image m) := by
  refine Resolves.foldl (fun m s hs => ?_) m
  have hmem : ∀ w ∈ [(s.displacementPatchOffset, 4), (s.tableCacheOffset, 4 * s.guestTargets.length)],
      w ∈ image.code.placementWindows := by
    intro w hw
    simp only [Fragment.placementWindows, List.mem_append, List.mem_flatMap]
    exact Or.inl (Or.inl (Or.inl (Or.inl (Or.inr ⟨s, hs, hw⟩))))
  have hpatch : (s.displacementPatchOffset, 4) ∈ image.code.placementWindows := hmem _ (by simp)
  have htable : (s.tableCacheOffset, 4 * s.guestTargets.length) ∈ image.code.placementWindows :=
    hmem _ (by simp)
  exact (Resolves.write32 hpatch _).trans
    (Resolves.write htable (jumpTableWords_length absolute image s))

theorem resolves_dispatch {reported immediateOffset thunkOffset : ℕ} (thunk : Word)
    (himm : (immediateOffset, 4) ∈ image.code.placementWindows)
    (hthunk : (thunkOffset, 4) ∈ image.code.placementWindows) :
    Resolves base image.code.placementWindows views opened m
      (resolveDispatch base absolute thunk reported immediateOffset thunkOffset m) :=
  (Resolves.write32 himm _).trans (Resolves.write32 hthunk _)

theorem resolves_returns (thunk : Word) :
    Resolves base image.code.placementWindows views opened m
      (resolveAotDbtReturnDispatchSites base absolute thunk image m) := by
  refine Resolves.foldl (fun m s hs => ?_) m
  refine resolves_dispatch base absolute image m thunk ?_ ?_
  all_goals
    simp only [Fragment.placementWindows, List.mem_append, List.mem_flatMap]
    exact Or.inl (Or.inl (Or.inl (Or.inr ⟨s, hs, by simp⟩)))

theorem resolves_edges (thunk : Word) :
    Resolves base image.code.placementWindows views opened m
      (resolveAotDbtDirectEdgeDispatchSites base absolute thunk image m) := by
  refine Resolves.foldl (fun m s hs => ?_) m
  refine resolves_dispatch base absolute image m thunk ?_ ?_
  all_goals
    simp only [Fragment.placementWindows, List.mem_append, List.mem_flatMap]
    exact Or.inl (Or.inr ⟨s, hs, by simp⟩)

theorem resolves_hle (thunk : Word) :
    Resolves base image.code.placementWindows views opened m
      (resolveAotDbtHleDispatchSites base absolute thunk image m) := by
  refine Resolves.foldl (fun m s hs => ?_) m
  refine resolves_dispatch base absolute image m thunk ?_ ?_
  all_goals
    simp only [Fragment.placementWindows, List.mem_append, List.mem_flatMap]
    exact Or.inr ⟨s, hs, by simp⟩

theorem resolves_probes (probes : DirectReturnTable) :
    Resolves base image.code.placementWindows views opened m
      (image.code.directReturnProbeSites.foldl (patchAotDirectReturnProbe base probes) m) := by
  refine Resolves.foldl (fun m s hs => ?_) m
  have hmem : ∀ w ∈ [(s.maskImmediateOffset, 4), (s.keyAddressOffset, 4), (s.targetAddressOffset, 4),
      (s.hitCounterAddressOffset, 4)], w ∈ image.code.placementWindows := by
    intro w hw
    simp only [Fragment.placementWindows, List.mem_append, List.mem_flatMap]
    exact Or.inl (Or.inl (Or.inr ⟨s, hs, hw⟩))
  exact (((Resolves.write32 (hmem _ (by simp)) _).trans (Resolves.write32 (hmem _ (by simp)) _)).trans
    (Resolves.write32 (hmem _ (by simp)) _)).trans (Resolves.write32 (hmem _ (by simp)) _)

end Windows

/-- Every step of resolution together. -/
theorem resolves_resolveImage {m m' : Memory}
    (h : resolveImage base absolute host table image m = .ok m') :
    ResolvesImage base table host image m m' := by
  unfold resolveImage at h
  simp only [bind, Except.bind, pure, Except.pure, throw, throwThe, MonadExceptOf.throw] at h
  split at h
  · contradiction
  split at h
  · contradiction
  split at h
  · contradiction
  split at h
  · contradiction
  split at h
  · contradiction
  split at h
  · contradiction
  rw [← Except.ok.inj h]
  exact ((((((resolves_timers base image m _).trans
    (resolves_jumpTables base absolute image _)).trans
    (resolves_resolveSegments base table host image _)).trans
    (resolves_returns base absolute image _ _)).trans
    (resolves_probes base image _ _)).trans
    (resolves_edges base absolute image _ _)).trans
    (resolves_hle base absolute image _ _)

end Image

end Repiu.Engine
