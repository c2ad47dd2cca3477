import Repiu.Engine.ChainRuns

/-!
# What the operations leave alone

A guard chain is written by patches and resets alone: the segment slots lie in
other entries, and an append writes behind the placement and over the first bytes
of inactive entries.
-/

namespace Repiu.Engine

open Repiu.Runtime Repiu.Memory Repiu.X86

/-! ## Segment slots and guard chains -/

/-- A segment slot does not reach into a guard chain. -/
theorem not_covers_chain {views : List PatchView} {chains : List AotIndirectInlineCacheSite}
    {map : List AotAddressMapEntry} {size : ℕ} (h : SiteSpec views chains map size) {v : PatchView}
    (hv : v ∈ views) {s : AotIndirectInlineCacheSite} (hs : s ∈ chains) (base : ℕ) {a : ℕ}
    (hlo : s.cacheOffset < a) (hhi : a < aotInlineCacheGuardTargetOffset s) :
    ¬Covers base v (base + a) ∧ base + a ≠ base + v.start := by
  obtain ⟨e, he, hview⟩ := h.views_in v hv
  obtain ⟨e', he', hchain⟩ := h.chains_in s hs
  have hne := h.views_chains v hv s hs
  have hstart := hview.start_eq
  have hstart' := hchain.start_eq
  have hopening := hview.opening_le
  have := hchain.miss_ge
  have := hchain.miss_lt
  have hpos := h.entries_in e he
  have hcovers : e.cacheOffset ≤ a → a < e.limit → False := by
    intro hlo' hhi'
    rcases Nat.lt_or_gt_of_ne (show e.cacheOffset ≠ e'.cacheOffset by omega) with hlt | hlt
    · have := limit_le_of_lt h.entries_apart he he' hlt
      omega
    · have := limit_le_of_lt h.entries_apart he' he hlt
      omega
  have hlimit : e.cacheOffset < e.limit := by
    unfold AotAddressMapEntry.limit
    omega
  refine ⟨?_, fun heq => hcovers (by omega) (by omega)⟩
  rintro (heq | ⟨hge, hlt⟩ | ⟨w, hw, hge, hlt⟩)
  · exact hcovers (by omega) (by omega)
  · exact hcovers (by omega) (by omega)
  · have := hview.windows_in w hw
    exact hcovers (by omega) (by omega)

/-- Resolution leaves the guard chains alone. -/
theorem Resolves.chain {base : ℕ} {windows : List Window} {views : List PatchView} {opened : ℕ → Bool}
    {m m' : Memory} (h : Resolves base windows views opened m m')
    {chains : List AotIndirectInlineCacheSite} {map : List AotAddressMapEntry} {size : ℕ}
    (hsites : SiteSpec views chains map size) (hwindows : WindowSpec windows chains map size)
    {s : AotIndirectInlineCacheSite} (hs : s ∈ chains) {a : ℕ} (hlo : s.cacheOffset < a)
    (hhi : a < aotInlineCacheGuardTargetOffset s) : m' (base + a) = m (base + a) := by
  have hout : ∀ w ∈ windows, base + a < base + w.1 ∨ base + w.1 + w.2 ≤ base + a := by
    intro w hw
    have := hwindows.off_chains w hw s hs
    omega
  have hclosed : ∀ v ∈ views, Covers base v (base + a) → opened v.start = false := by
    intro v hv hcovers
    exact absurd hcovers (not_covers_chain hsites hv hs base hlo hhi).1
  rcases h (base + a) hout hclosed with heq | ⟨-, v, hv, heq⟩
  · exact heq
  · exact absurd heq (not_covers_chain hsites hv hs base hlo hhi).2

theorem windowSpec_nil (chains : List AotIndirectInlineCacheSite) (map : List AotAddressMapEntry)
    (size : ℕ) : WindowSpec [] chains map size :=
  ⟨by simp, by simp, by simp⟩

/-! ## Closed entries -/

theorem closeInactiveEntries_length (p : AotCodeCachePlacement) (guestEntry : Word)
    (image : AotCodeCacheImage) :
    (closeInactiveEntries p guestEntry image).length = image.bytes.length := by
  unfold closeInactiveEntries
  generalize image.bytes = bytes
  induction image.addressMap generalizing bytes with
  | nil => rfl
  | cons e es ih =>
    rw [List.foldl_cons, ih]
    split_ifs
    · rfl
    · exact List.length_set

/-- Only the first bytes of entries that are not activated are closed. -/
theorem closeInactiveEntries_getD {p : AotCodeCachePlacement} {guestEntry : Word}
    {image : AotCodeCacheImage} {a : ℕ}
    (h : ∀ e ∈ image.addressMap, activatesEntry p guestEntry e = false → a ≠ e.cacheOffset) :
    (closeInactiveEntries p guestEntry image).getD a 0 = image.bytes.getD a 0 := by
  unfold closeInactiveEntries
  generalize image.bytes = bytes
  generalize image.addressMap = map at h
  induction map generalizing bytes with
  | nil => rfl
  | cons e es ih =>
    rw [List.foldl_cons, ih _ fun e' he' => h e' (List.mem_cons_of_mem e he')]
    split_ifs with hactive
    · rfl
    · have hne := h e List.mem_cons_self (by simpa using hactive)
      rw [List.getD_eq_getElem?_getD, List.getElem?_set_ne hne.symm, ← List.getD_eq_getElem?_getD]

/-! ## Relinking -/

theorem relinkEntry_frame {p : AotCodeCachePlacement} {freshOffset i : ℕ} (m : Memory) {a : ℕ}
    (h : ∀ e, p.addressMap[i]? = some e → p.isActive i = false → 5 ≤ e.emittedLength →
      a < e.cacheOffset ∨ e.cacheOffset + 5 ≤ a) :
    relinkEntry p freshOffset m i a = m a := by
  unfold relinkEntry
  cases he : p.addressMap[i]? with
  | none => rfl
  | some e =>
    simp only
    split_ifs with hskip
    · rfl
    · rw [not_or, not_or] at hskip
      have := h e he (by simpa using hskip.1) (by omega)
      rw [set32_out _ _ (by omega), set_ne _ _ (by omega)]

/-- Relinking writes the first five bytes of inactive entries. -/
theorem relinkEntries_frame {p : AotCodeCachePlacement} {guestEntry : Word} {image : AotCodeCacheImage}
    (m : Memory) {a : ℕ}
    (h : ∀ i e, p.addressMap[i]? = some e → p.isActive i = false → 5 ≤ e.emittedLength →
      a < e.cacheOffset ∨ e.cacheOffset + 5 ≤ a) :
    relinkEntries p guestEntry image m a = m a := by
  refine foldl_frame _ _ m a fun m fresh _ => ?_
  split_ifs
  · exact foldl_frame _ _ m a fun m i _ => relinkEntry_frame m (h i)
  · rfl

/-- Nothing behind the placement is relinked. -/
theorem Laid.relinkEntries_behind {p : AotCodeCachePlacement} (hlaid : Laid p) (guestEntry : Word)
    (image : AotCodeCacheImage) (m : Memory) {a : ℕ} (ha : p.size ≤ a) :
    relinkEntries p guestEntry image m a = m a := by
  refine relinkEntries_frame m fun i e he _ hlen => ?_
  have := hlaid.sites.entries_in e (List.mem_of_getElem? he)
  unfold AotAddressMapEntry.limit at this
  omega

/-- Resolving an image behind `base` leaves the bytes before it alone. -/
theorem Resolves.before {base : ℕ} {windows : List Window} {views : List PatchView} {opened : ℕ → Bool}
    {m m' : Memory} (h : Resolves base windows views opened m m') {a : ℕ} (ha : a < base) :
    m' a = m a := by
  have hout : ∀ w ∈ windows, a < base + w.1 ∨ base + w.1 + w.2 ≤ a := by
    intro w _
    omega
  have hclosed : ∀ v ∈ views, Covers base v a → opened v.start = false := by
    intro v _ hcovers
    rcases hcovers with heq | ⟨hge, -⟩ | ⟨w, -, hge, -⟩ <;> omega
  rcases h a hout hclosed with heq | ⟨-, v, -, heq⟩
  · exact heq
  · omega

/-! ## Fresh chains -/

/-- A placed image has fresh chains. -/
theorem fresh_place {env : PlaceEnvironment} {image : AotCodeCacheImage} {p : AotCodeCachePlacement}
    (himage : ImageSpec image.code image.addressMap) (h : placeAotCodeCache env image = some p) :
    ∀ s ∈ p.sites.indirectInlineCacheSites, ChainFresh p.memory s := by
  obtain ⟨base, memory, -, -, hresolved, rfl⟩ := placeAotCodeCache_eq_some h
  obtain ⟨-, -, hsame⟩ :=
    initializeAotPageCoherence_spec (placedImage base memory image) image.addressMap
  intro s hs
  rw [hsame.sites] at hs
  rw [hsame.memory]
  obtain ⟨e, -, hin⟩ := himage.sites.chains_in s hs
  have hlt := himage.sites.chain_lt hs
  have hresolves := resolves_resolveImage 0 base .empty env.host image hresolved
  refine (himage.fresh s hs).congr hin fun a hlo hhi => ?_
  have hstart := hin.start_eq
  have heq := hresolves.chain himage.sites himage.windows hs (a := a) (by omega) hhi
  rw [Nat.zero_add] at heq
  rw [show (placedImage base memory image).memory a = memory a from rfl, heq]
  have := setBytes_in (fun _ => 0) (a := 0) image.bytes (i := a) (by
    show a < image.code.bytes.length
    omega)
  rw [Nat.zero_add] at this
  exact this

/-- Copying and resolving an image leave the code before it alone. -/
theorem resolveImage_before {p : AotCodeCachePlacement} {absolute : ℕ} {host : PlacementHost}
    {segments : AotSegmentTable} {image : AotCodeCacheImage} {bytes : List Byte} {resolved : Memory}
    (h : resolveImage p.size absolute host segments image (p.memory.setBytes p.size bytes) = .ok resolved) {a : ℕ}
    (ha : a < p.size) : resolved a = p.memory a := by
  rw [(resolves_resolveImage p.size absolute segments host image h).before ha]
  exact setBytes_out _ _ (Or.inl ha)

/-- An appended image has fresh chains. -/
theorem fresh_append {p : AotCodeCachePlacement} (hlaid : Laid p) {request : AppendRequest}
    {env : AppendEnvironment} {image : AotCodeCacheImage} {resolved : Memory}
    (himage : ImageSpec image.code image.addressMap)
    (hresolved : resolveImage p.size (p.baseAddress + p.size) env.host
      (request.segmentTable.getD .empty) image
      (p.memory.setBytes p.size (closeInactiveEntries p request.guestEntry image)) = .ok resolved) :
    ∀ s ∈ image.code.indirectInlineCacheSites,
      ChainFresh (relinkEntries p request.guestEntry image resolved) (s.move p.size) := by
  intro s hs
  obtain ⟨e, he, hin⟩ := himage.sites.chains_in s hs
  have hlt := himage.sites.chain_lt hs
  have hstart := hin.start_eq
  have hresolves := resolves_resolveImage p.size (p.baseAddress + p.size)
    (request.segmentTable.getD .empty) env.host image hresolved
  refine (himage.fresh s hs).move hin p.size fun a hlo hhi => ?_
  rw [hlaid.relinkEntries_behind _ _ _ (by omega),
    hresolves.chain himage.sites himage.windows hs (by omega) hhi]
  have hlen := closeInactiveEntries_length p request.guestEntry image
  have hbytes : a < image.bytes.length := by
    show a < image.code.bytes.length
    omega
  rw [setBytes_in _ _ (by omega), closeInactiveEntries_getD fun e' he' _ => ?_]
  · rfl
  · -- the chain is inside its entry, so no entry starts in it
    rintro rfl
    have := limit_le_of_lt himage.sites.entries_apart he he' hlo
    have := hin.miss_ge
    have := hin.miss_lt
    omega

end Repiu.Engine
