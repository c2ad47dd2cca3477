import Repiu.Runtime.Layout

/-!
# Sites of an address map

What holds of the sites and entries of a run of emitted code, and that it holds of
two runs one behind the other.  The same rule serves emission, where a slot or a
gap is put behind the bytes emitted so far, and the placement, where an image is
put behind those placed before.
-/

namespace Repiu.Runtime

open Repiu.Memory

/-- Move an entry. -/
def AotAddressMapEntry.move (base : ℕ) (e : AotAddressMapEntry) : AotAddressMapEntry :=
  { e with cacheOffset := base + e.cacheOffset }

/-- The end of an entry. -/
def AotAddressMapEntry.limit (e : AotAddressMapEntry) : ℕ := e.cacheOffset + e.emittedLength

/-- Entries are apart and inside the code; every segment slot and every guard chain fills an
entry, and no entry is both. -/
structure SiteSpec (views : List PatchView) (chains : List AotIndirectInlineCacheSite)
    (map : List AotAddressMapEntry) (size : ℕ) : Prop where
  entries_in : ∀ e ∈ map, 0 < e.emittedLength ∧ e.limit ≤ size
  entries_apart : map.Pairwise fun e e' => e.limit ≤ e'.cacheOffset
  views_in : ∀ v ∈ views, ∃ e ∈ map, v.Within e.cacheOffset e.limit
  chains_in : ∀ s ∈ chains, ∃ e ∈ map, ChainIn s e.cacheOffset e.limit
  chains_apart : chains.Pairwise fun s s' => s.cacheOffset < s'.cacheOffset
  views_chains : ∀ v ∈ views, ∀ s ∈ chains, v.start ≠ s.cacheOffset

/-- Operands that no entry starts in and no guard chain overlaps. -/
structure WindowSpec (windows : List Window) (chains : List AotIndirectInlineCacheSite)
    (map : List AotAddressMapEntry) (size : ℕ) : Prop where
  below : ∀ w ∈ windows, w.1 + w.2 ≤ size
  off_starts : ∀ w ∈ windows, ∀ e ∈ map, e.cacheOffset < w.1 ∨ w.1 + w.2 ≤ e.cacheOffset
  off_chains : ∀ w ∈ windows, ∀ s ∈ chains,
    w.1 + w.2 ≤ s.cacheOffset ∨ aotInlineCacheGuardTargetOffset s ≤ w.1

namespace SiteSpec

variable {views views₁ views₂ : List PatchView} {chains chains₁ chains₂ : List AotIndirectInlineCacheSite}
  {map map₁ map₂ : List AotAddressMapEntry} {size size₁ size₂ : ℕ}

theorem view_lt (h : SiteSpec views chains map size) {v : PatchView} (hv : v ∈ views) : v.start < size := by
  obtain ⟨e, he, hin⟩ := h.views_in v hv
  have := h.entries_in e he
  have := hin.start_eq
  unfold AotAddressMapEntry.limit at *
  omega

theorem chain_lt (h : SiteSpec views chains map size) {s : AotIndirectInlineCacheSite} (hs : s ∈ chains) :
    s.cacheOffset < size ∧ aotInlineCacheGuardTargetOffset s ≤ size := by
  obtain ⟨e, he, hin⟩ := h.chains_in s hs
  have := h.entries_in e he
  have := hin.start_eq
  have := hin.miss_ge
  have := hin.miss_lt
  unfold AotAddressMapEntry.limit at *
  omega

/-- Two runs of code, one behind the other. -/
theorem append (h₁ : SiteSpec views₁ chains₁ map₁ size₁) (h₂ : SiteSpec views₂ chains₂ map₂ size₂)
    (hviews : ∀ v ∈ views, v ∈ views₁ ∨ ∃ v' ∈ views₂, v = v'.move size₁) :
    SiteSpec views (chains₁ ++ chains₂.map (AotIndirectInlineCacheSite.move size₁))
      (map₁ ++ map₂.map (AotAddressMapEntry.move size₁)) (size₁ + size₂) where
  entries_in := by
    intro e he
    rcases List.mem_append.mp he with he | he
    · have := h₁.entries_in e he
      omega
    · obtain ⟨e', he', rfl⟩ := List.mem_map.mp he
      have := h₂.entries_in e' he'
      simp only [AotAddressMapEntry.move, AotAddressMapEntry.limit] at *
      omega
  entries_apart := by
    refine List.pairwise_append.mpr ⟨h₁.entries_apart, ?_, ?_⟩
    · refine List.pairwise_map.mpr (h₂.entries_apart.imp ?_)
      intro e e' hee
      simp only [AotAddressMapEntry.move, AotAddressMapEntry.limit] at *
      omega
    · intro e he e' he'
      obtain ⟨e'', -, rfl⟩ := List.mem_map.mp he'
      have := h₁.entries_in e he
      simp only [AotAddressMapEntry.move]
      omega
  views_in := by
    intro v hv
    rcases hviews v hv with hv | ⟨v', hv', rfl⟩
    · obtain ⟨e, he, hin⟩ := h₁.views_in v hv
      exact ⟨e, List.mem_append_left _ he, hin⟩
    · obtain ⟨e, he, hin⟩ := h₂.views_in v' hv'
      refine ⟨e.move size₁, List.mem_append_right _ (List.mem_map_of_mem he), ?_⟩
      have := hin.move size₁
      simpa only [AotAddressMapEntry.move, AotAddressMapEntry.limit, Nat.add_assoc] using this
  chains_in := by
    intro s hs
    rcases List.mem_append.mp hs with hs | hs
    · obtain ⟨e, he, hin⟩ := h₁.chains_in s hs
      exact ⟨e, List.mem_append_left _ he, hin⟩
    · obtain ⟨s', hs', rfl⟩ := List.mem_map.mp hs
      obtain ⟨e, he, hin⟩ := h₂.chains_in s' hs'
      refine ⟨e.move size₁, List.mem_append_right _ (List.mem_map_of_mem he), ?_⟩
      have := hin.move size₁
      simpa only [AotAddressMapEntry.move, AotAddressMapEntry.limit, Nat.add_assoc] using this
  chains_apart := by
    refine List.pairwise_append.mpr ⟨h₁.chains_apart, ?_, ?_⟩
    · refine List.pairwise_map.mpr (h₂.chains_apart.imp ?_)
      intro s s' hss
      simp only [AotIndirectInlineCacheSite.move]
      omega
    · intro s hs s' hs'
      obtain ⟨s'', -, rfl⟩ := List.mem_map.mp hs'
      have := h₁.chain_lt hs
      simp only [AotIndirectInlineCacheSite.move]
      omega
  views_chains := by
    intro v hv s hs
    rcases hviews v hv with hv | ⟨v', hv', rfl⟩ <;> rcases List.mem_append.mp hs with hs | hs
    · exact h₁.views_chains v hv s hs
    · obtain ⟨s', -, rfl⟩ := List.mem_map.mp hs
      have := h₁.view_lt hv
      simp only [AotIndirectInlineCacheSite.move]
      omega
    · have := h₁.chain_lt hs
      simp only [PatchView.move]
      omega
    · obtain ⟨s', hs', rfl⟩ := List.mem_map.mp hs
      have := h₂.views_chains v' hv' s' hs'
      simp only [PatchView.move, AotIndirectInlineCacheSite.move]
      omega

theorem empty (size : ℕ) : SiteSpec [] [] [] size where
  entries_in := by simp
  entries_apart := List.Pairwise.nil
  views_in := by simp
  chains_in := by simp
  chains_apart := List.Pairwise.nil
  views_chains := by simp

end SiteSpec

namespace WindowSpec

variable {views₁ views₂ : List PatchView} {chains₁ chains₂ : List AotIndirectInlineCacheSite}
  {map₁ map₂ : List AotAddressMapEntry} {size₁ size₂ : ℕ} {windows windows₁ windows₂ : List Window}

theorem append (h₁ : WindowSpec windows₁ chains₁ map₁ size₁) (h₂ : WindowSpec windows₂ chains₂ map₂ size₂)
    (hs₁ : SiteSpec views₁ chains₁ map₁ size₁)
    (hwindows : ∀ w ∈ windows, w ∈ windows₁ ∨ ∃ w' ∈ windows₂, w = moveWindow size₁ w') :
    WindowSpec windows (chains₁ ++ chains₂.map (AotIndirectInlineCacheSite.move size₁))
      (map₁ ++ map₂.map (AotAddressMapEntry.move size₁)) (size₁ + size₂) where
  below := by
    intro w hw
    rcases hwindows w hw with hw | ⟨w', hw', rfl⟩
    · have := h₁.below w hw
      omega
    · have := h₂.below w' hw'
      simp only [moveWindow]
      omega
  off_starts := by
    intro w hw e he
    rcases hwindows w hw with hw | ⟨w', hw', rfl⟩ <;> rcases List.mem_append.mp he with he | he
    · exact h₁.off_starts w hw e he
    · obtain ⟨e', -, rfl⟩ := List.mem_map.mp he
      have := h₁.below w hw
      simp only [AotAddressMapEntry.move]
      omega
    · have := hs₁.entries_in e he
      simp only [moveWindow, AotAddressMapEntry.limit] at *
      omega
    · obtain ⟨e', he', rfl⟩ := List.mem_map.mp he
      have := h₂.off_starts w' hw' e' he'
      simp only [moveWindow, AotAddressMapEntry.move]
      omega
  off_chains := by
    intro w hw s hs
    rcases hwindows w hw with hw | ⟨w', hw', rfl⟩ <;> rcases List.mem_append.mp hs with hs | hs
    · exact h₁.off_chains w hw s hs
    · obtain ⟨s', -, rfl⟩ := List.mem_map.mp hs
      have := h₁.below w hw
      simp only [AotIndirectInlineCacheSite.move]
      omega
    · have := hs₁.chain_lt hs
      simp only [moveWindow]
      omega
    · obtain ⟨s', hs', rfl⟩ := List.mem_map.mp hs
      have := h₂.off_chains w' hw' s' hs'
      rw [aotInlineCacheGuardTargetOffset_move]
      simp only [moveWindow, AotIndirectInlineCacheSite.move]
      omega

end WindowSpec

/-! ## Slots and gaps -/

/-- The entry of a slot, at its own first byte. -/
def slotEntry (guestAddress : Word) (guestLength : ℕ) (f : Fragment) : AotAddressMapEntry :=
  { guestAddress := guestAddress, cacheOffset := 0, guestLength := guestLength
    emittedLength := f.bytes.length }

theorem SlotSpec.siteSpec {f : Fragment} (h : SlotSpec f) (guestAddress : Word) (guestLength : ℕ) :
    SiteSpec f.segmentViews f.indirectInlineCacheSites [slotEntry guestAddress guestLength f]
      f.bytes.length where
  entries_in := by
    intro e he
    rw [List.mem_singleton.mp he]
    have := h.pos
    simp only [slotEntry, AotAddressMapEntry.limit]
    omega
  entries_apart := List.pairwise_singleton _ _
  views_in := by
    intro v hv
    refine ⟨_, List.mem_singleton_self _, ?_⟩
    have := h.views v hv
    simpa only [slotEntry, AotAddressMapEntry.limit, Nat.zero_add] using this
  chains_in := by
    intro s hs
    refine ⟨_, List.mem_singleton_self _, ?_⟩
    rcases h.chain with hnil | ⟨site, hsite, hchain⟩
    · rw [hnil] at hs
      cases hs
    · rw [hsite, List.mem_singleton] at hs
      rw [hs]
      simpa only [slotEntry, AotAddressMapEntry.limit, Nat.zero_add] using hchain.shape
  chains_apart := by
    rcases h.chain with hnil | ⟨site, hsite, -⟩
    · rw [hnil]
      exact List.Pairwise.nil
    · rw [hsite]
      exact List.pairwise_singleton _ _
  views_chains := by
    intro v hv s hs
    rcases h.chain with hnil | ⟨site, -, hchain⟩
    · rw [hnil] at hs
      cases hs
    · rw [hchain.no_views] at hv
      cases hv

theorem SlotSpec.windowSpec {f : Fragment} (h : SlotSpec f) (guestAddress : Word) (guestLength : ℕ) :
    WindowSpec f.placementWindows f.indirectInlineCacheSites [slotEntry guestAddress guestLength f]
      f.bytes.length where
  below := fun w hw => (h.windows w hw).2
  off_starts := by
    intro w hw e he
    rw [List.mem_singleton.mp he]
    exact Or.inl (h.windows w hw).1
  off_chains := by
    intro w hw s hs
    rcases h.chain with hnil | ⟨site, hsite, hchain⟩
    · rw [hnil] at hs
      cases hs
    · rw [hsite, List.mem_singleton] at hs
      rw [hs]
      exact Or.inr (hchain.windows_behind w hw)

theorem GapSpec.windowSpec {f : Fragment} (h : GapSpec f) :
    WindowSpec f.placementWindows [] [] f.bytes.length where
  below := fun w hw => (h.windows w hw).2
  off_starts := by simp
  off_chains := by simp

end Repiu.Runtime
