import Repiu.Engine.SampleGuest

/-!
# Guards

Where the guards of a placement lie, and that a reset of one guard leaves every
other guard alone.
-/

namespace Repiu.Engine

open Repiu.Runtime Repiu.Memory Repiu.X86

/-! ## Guards are apart -/

/-- The bytes of a guard, from its compare to the end of its jump. -/
def GuardRegion (g : AotInlineCacheEntry) (a : ℕ) : Prop :=
  g.compareOffset ≤ a ∧ a < g.jumpDisplacementOffset + 4

/-- The fields of a guard follow one another. -/
structure GuardShape (g : AotInlineCacheEntry) : Prop where
  immediate_ge : g.compareOffset + 2 ≤ g.targetImmediateOffset
  guard_eq : g.guardOffset = g.targetImmediateOffset + 4
  jump_ge : g.guardOffset + 8 ≤ g.jumpDisplacementOffset

theorem siteGuards_eq {site : AotIndirectInlineCacheSite} (h : site.entries ≠ []) :
    siteGuards site = site.entries := by
  rw [siteGuards, if_neg]
  simpa using h

theorem pairwise_of_guardsAt {lo hi : ℕ} {gs : List AotInlineCacheEntry} (h : GuardsAt lo gs hi) :
    gs.Pairwise fun g g' => g.jumpDisplacementOffset + 4 ≤ g'.compareOffset := by
  induction gs generalizing lo with
  | nil => exact List.Pairwise.nil
  | cons g gs ih =>
    obtain ⟨-, -, -, -, hrest⟩ := h
    exact List.pairwise_cons.mpr ⟨fun g' hg' => (hrest.bounds hg').1, ih hrest⟩

/-- The guards of one chain have no byte in common. -/
theorem guards_apart_of_chainIn {site : AotIndirectInlineCacheSite} {lo hi : ℕ}
    (hin : ChainIn site lo hi) {i j : ℕ} {g g' : AotInlineCacheEntry}
    (hg : (siteGuards site)[i]? = some g) (hg' : (siteGuards site)[j]? = some g') (hne : i ≠ j) {a : ℕ}
    (ha : GuardRegion g a) : ¬GuardRegion g' a := by
  intro ha'
  rw [siteGuards_eq hin.entries_ne] at hg hg'
  have hpair := List.pairwise_iff_getElem.mp (pairwise_of_guardsAt hin.guards)
  obtain ⟨hi, rfl⟩ := List.getElem?_eq_some_iff.mp hg
  obtain ⟨hj, rfl⟩ := List.getElem?_eq_some_iff.mp hg'
  unfold GuardRegion at ha ha'
  rcases Nat.lt_or_gt_of_ne hne with hlt | hlt
  · have := hpair i j hi hj hlt
    omega
  · have := hpair j i hj hi hlt
    omega

/-- Entries in the order of their offsets are apart. -/
theorem limit_le_of_lt {map : List AotAddressMapEntry}
    (h : map.Pairwise fun e e' => e.limit ≤ e'.cacheOffset) {e e' : AotAddressMapEntry}
    (he : e ∈ map) (he' : e' ∈ map) (hlt : e.cacheOffset < e'.cacheOffset) :
    e.limit ≤ e'.cacheOffset := by
  obtain ⟨i, hi, rfl⟩ := List.getElem_of_mem he
  obtain ⟨j, hj, rfl⟩ := List.getElem_of_mem he'
  rcases Nat.lt_trichotomy i j with hij | rfl | hij
  · exact List.pairwise_iff_getElem.mp h i j hi hj hij
  · omega
  · have := List.pairwise_iff_getElem.mp h j i hj hi hij
    unfold AotAddressMapEntry.limit at *
    omega

section Laid

variable {p : AotCodeCachePlacement}

/-- A guard of a placed site: its shape, its chain and its entry. -/
structure GuardOf (p : AotCodeCachePlacement) (site : AotIndirectInlineCacheSite) (g : AotInlineCacheEntry)
    (e : AotAddressMapEntry) : Prop where
  entry : e ∈ p.addressMap
  chain : ChainIn site e.cacheOffset e.limit
  shape : GuardShape g
  compare_gt : e.cacheOffset < g.compareOffset
  jump_le : g.jumpDisplacementOffset + 4 ≤ aotInlineCacheGuardTargetOffset site

theorem Laid.guardOf (h : Laid p) {site : AotIndirectInlineCacheSite}
    (hs : site ∈ p.sites.indirectInlineCacheSites) {g : AotInlineCacheEntry} (hg : g ∈ siteGuards site) :
    ∃ e, GuardOf p site g e := by
  obtain ⟨e, he, hin⟩ := h.sites.chains_in site hs
  rw [siteGuards_eq hin.entries_ne] at hg
  obtain ⟨h₁, h₂, h₃, h₄, h₅⟩ := hin.guards.bounds hg
  exact ⟨e, he, hin, ⟨h₂, h₃, h₄⟩, by omega, h₅⟩

theorem GuardOf.inside {site : AotIndirectInlineCacheSite} {g : AotInlineCacheEntry}
    {e : AotAddressMapEntry} (h : GuardOf p site g e) (hlaid : Laid p) :
    g.jumpDisplacementOffset + 4 ≤ e.limit ∧ aotInlineCacheGuardTargetOffset site < p.size ∧
      e.limit ≤ p.size := by
  have := h.chain.miss_ge
  have := h.chain.miss_lt
  have := hlaid.sites.entries_in e h.entry
  have := h.jump_le
  omega

/-- No entry starts in a guard. -/
theorem GuardOf.off_starts {site : AotIndirectInlineCacheSite} {g : AotInlineCacheEntry}
    {e : AotAddressMapEntry} (h : GuardOf p site g e) (hlaid : Laid p) {a : ℕ} (ha : GuardRegion g a)
    {e' : AotAddressMapEntry} (he' : e' ∈ p.addressMap) : a ≠ e'.cacheOffset := by
  rintro rfl
  have hin := h.inside hlaid
  have := limit_le_of_lt hlaid.sites.entries_apart h.entry he' (by have := h.compare_gt; have := ha.1; omega)
  have := ha.2
  omega

/-- All guards of a placement, each with the end of its chain. -/
def allGuards (sites : List AotIndirectInlineCacheSite) : List (AotInlineCacheEntry × ℕ) :=
  sites.flatMap fun site => (siteGuards site).map fun g => (g, aotInlineCacheGuardTargetOffset site)

theorem mem_allGuards {sites : List AotIndirectInlineCacheSite} {x : AotInlineCacheEntry × ℕ} :
    x ∈ allGuards sites ↔ ∃ site ∈ sites, ∃ g ∈ siteGuards site,
      x = (g, aotInlineCacheGuardTargetOffset site) := by
  simp only [allGuards, List.mem_flatMap, List.mem_map]
  constructor
  · rintro ⟨site, hs, g, hg, rfl⟩
    exact ⟨site, hs, g, hg, rfl⟩
  · rintro ⟨site, hs, g, hg, rfl⟩
    exact ⟨site, hs, g, hg, rfl⟩

theorem Laid.allGuards_apart (h : Laid p) :
    (allGuards p.sites.indirectInlineCacheSites).Pairwise fun x y =>
      ∀ a, GuardRegion x.1 a → ¬GuardRegion y.1 a := by
  unfold allGuards
  rw [List.pairwise_flatMap]
  refine ⟨?_, ?_⟩
  · intro site hs
    obtain ⟨e, he, hin⟩ := h.sites.chains_in site hs
    rw [siteGuards_eq hin.entries_ne]
    refine List.pairwise_map.mpr ((pairwise_of_guardsAt hin.guards).imp ?_)
    intro g g' hlt a ha ha'
    simp only [GuardRegion] at ha ha'
    omega
  · refine h.sites.chains_apart.imp_of_mem ?_
    intro s s' hs hs' hlt x hx y hy a hxa hya
    obtain ⟨g, hg, rfl⟩ := List.mem_map.mp hx
    obtain ⟨g', hg', rfl⟩ := List.mem_map.mp hy
    obtain ⟨e, hof⟩ := h.guardOf hs hg
    obtain ⟨e', hof'⟩ := h.guardOf hs' hg'
    have hin := hof.inside h
    have hstart := hof.chain.start_eq
    have hstart' := hof'.chain.start_eq
    have := limit_le_of_lt h.sites.entries_apart hof.entry hof'.entry (by omega)
    have := hof'.compare_gt
    simp only [GuardRegion] at hxa hya
    omega

end Laid

/-! ## Resetting -/

theorem resetGuard_frame {size : ℕ} {page : Word} {target : ℕ} {g : AotInlineCacheEntry}
    (hshape : GuardShape g) (m : Memory) {a : ℕ} (ha : ¬GuardRegion g a) :
    resetGuard size page target m g a = m a := by
  have h₁ := hshape.immediate_ge
  have h₂ := hshape.guard_eq
  have h₃ := hshape.jump_ge
  unfold GuardRegion at ha
  unfold resetGuard
  split_ifs
  · rfl
  · rfl
  · rfl
  · rw [set_ne _ _ (by omega), set32_out _ _ (by omega), set_ne _ _ (by omega)]

theorem resetGuard_local {size : ℕ} {page : Word} {target : ℕ} {g : AotInlineCacheEntry}
    (hshape : GuardShape g) {m m' : Memory} (h : ∀ a, GuardRegion g a → m a = m' a) {a : ℕ}
    (ha : GuardRegion g a) : resetGuard size page target m g a = resetGuard size page target m' g a := by
  have h₁ := hshape.immediate_ge
  have h₂ := hshape.guard_eq
  have h₃ := hshape.jump_ge
  have hguard : m g.guardOffset = m' g.guardOffset := h _ ⟨by omega, by omega⟩
  have hguard' : m (g.guardOffset + 1) = m' (g.guardOffset + 1) := h _ ⟨by omega, by omega⟩
  have himm : m.get32 g.targetImmediateOffset = m'.get32 g.targetImmediateOffset :=
    get32_congr fun i hi hi' => h i ⟨by omega, by omega⟩
  unfold resetGuard
  rw [hguard, hguard', himm]
  split_ifs
  · exact h a ha
  · exact h a ha
  · exact h a ha
  · simp only [Memory.set, set32, setBytes]
    rw [h a ha]

theorem resetInlineCacheGuardsTargetingPage_eq (size : ℕ) (page : Word)
    (sites : List AotIndirectInlineCacheSite) (m : Memory) :
    resetInlineCacheGuardsTargetingPage size page sites m =
      (allGuards sites).foldl (fun m x => resetGuard size page x.2 m x.1) m := by
  unfold resetInlineCacheGuardsTargetingPage allGuards
  induction sites generalizing m with
  | nil => rfl
  | cons s ss ih =>
    rw [List.foldl_cons, List.flatMap_cons, List.foldl_append, ih, resetSiteGuards, List.foldl_map]

variable {p : AotCodeCachePlacement}

/-- In the bytes of a guard, the resets of a whole placement are its own reset. -/
theorem Laid.resets_at (h : Laid p) (page : Word) (m : Memory) {site : AotIndirectInlineCacheSite}
    (hs : site ∈ p.sites.indirectInlineCacheSites) {g : AotInlineCacheEntry} (hg : g ∈ siteGuards site)
    {a : ℕ} (ha : GuardRegion g a) :
    resetInlineCacheGuardsTargetingPage p.size page p.sites.indirectInlineCacheSites m a =
      resetGuard p.size page (aotInlineCacheGuardTargetOffset site) m g a := by
  have hshape : ∀ x ∈ allGuards p.sites.indirectInlineCacheSites, GuardShape x.1 := by
    intro x hx
    obtain ⟨s, hs, g, hg, rfl⟩ := mem_allGuards.mp hx
    obtain ⟨e, hof⟩ := h.guardOf hs hg
    exact hof.shape
  rw [resetInlineCacheGuardsTargetingPage_eq]
  refine foldl_local (fun x a => GuardRegion x.1 a) ?_ ?_ h.allGuards_apart m
    (x := (g, aotInlineCacheGuardTargetOffset site)) ?_ ha
  · intro x hx m a hout
    exact resetGuard_frame (hshape x hx) m hout
  · intro x hx m m' heq a hin
    exact resetGuard_local (hshape x hx) heq hin
  · exact mem_allGuards.mpr ⟨site, hs, g, hg, rfl⟩

/-- Outside of every guard nothing is reset. -/
theorem Laid.resets_out (h : Laid p) (page : Word) (m : Memory) {a : ℕ}
    (ha : ∀ site ∈ p.sites.indirectInlineCacheSites, ∀ g ∈ siteGuards site, ¬GuardRegion g a) :
    resetInlineCacheGuardsTargetingPage p.size page p.sites.indirectInlineCacheSites m a = m a := by
  rw [resetInlineCacheGuardsTargetingPage_eq]
  refine foldl_frame _ _ m a fun m x hx => ?_
  obtain ⟨s, hs, g, hg, rfl⟩ := mem_allGuards.mp hx
  obtain ⟨e, hof⟩ := h.guardOf hs hg
  exact resetGuard_frame hof.shape m (ha s hs g hg)

/-- Trapping entries writes first bytes only. -/
theorem trapEntries_frame (selected : List ℕ) (m : Memory) {a : ℕ}
    (ha : ∀ i ∈ selected, ∀ e, p.addressMap[i]? = some e → a ≠ e.cacheOffset) :
    trapEntries p selected m a = m a := by
  refine foldl_frame _ _ m a fun m i hi => ?_
  cases he : p.addressMap[i]? with
  | some e => exact set_ne m _ (ha i hi e he)
  | none => rfl

/-- In the bytes of a guard, a retirement is the reset of the guard. -/
theorem Laid.retire_at (h : Laid p) (page : Word) (selected : List ℕ) (m : Memory)
    {site : AotIndirectInlineCacheSite} (hs : site ∈ p.sites.indirectInlineCacheSites)
    {g : AotInlineCacheEntry} (hg : g ∈ siteGuards site) {a : ℕ} (ha : GuardRegion g a) :
    resetInlineCacheGuardsTargetingPage p.size page p.sites.indirectInlineCacheSites
        (trapEntries p selected m) a =
      resetGuard p.size page (aotInlineCacheGuardTargetOffset site) m g a := by
  obtain ⟨e, hof⟩ := h.guardOf hs hg
  rw [h.resets_at page _ hs hg ha]
  refine resetGuard_local hof.shape (fun b hb => ?_) ha
  refine trapEntries_frame selected m fun i _ e' he' => ?_
  exact hof.off_starts h hb (List.mem_of_getElem? he')

/-! ## Learned guards and retirement -/

/-- The offset a learned guard jumps to. -/
def learnedJump (mem : Memory) (g : AotInlineCacheEntry) : Option ℤ :=
  if mem g.guardOffset = 0x0F ∧ mem (g.guardOffset + 1) = 0x85 then
    some (relativeTarget mem g.jumpDisplacementOffset)
  else none

/-- A learned guard jumps into an entry. -/
def JumpsInto (mem : Memory) (g : AotInlineCacheEntry) (e : AotAddressMapEntry) : Prop :=
  ∃ d, learnedJump mem g = some d ∧ (e.cacheOffset : ℤ) ≤ d ∧ d < e.limit

theorem learnedJump_congr {m m' : Memory} {g : AotInlineCacheEntry} (hshape : GuardShape g)
    (h : ∀ a, GuardRegion g a → m a = m' a) : learnedJump m g = learnedJump m' g := by
  have h₁ := hshape.immediate_ge
  have h₂ := hshape.guard_eq
  have h₃ := hshape.jump_ge
  have hguard : m g.guardOffset = m' g.guardOffset := h _ ⟨by omega, by omega⟩
  have hguard' : m (g.guardOffset + 1) = m' (g.guardOffset + 1) := h _ ⟨by omega, by omega⟩
  have hjump : m.get32 g.jumpDisplacementOffset = m'.get32 g.jumpDisplacementOffset :=
    get32_congr fun i hi hi' => h i ⟨by omega, by omega⟩
  simp only [learnedJump, relativeTarget, hguard, hguard', hjump]

/-- A reset leaves exactly the learned guards of other pages learned. -/
theorem learnedJump_resetGuard {size : ℕ} {page : Word} {target : ℕ} {m : Memory}
    {g : AotInlineCacheEntry} (hsize : g.guardOffset + 6 ≤ size ∧ g.targetImmediateOffset + 4 ≤ size)
    (htarget : target < size) :
    learnedJump (resetGuard size page target m g) g =
      if aotGuestPage (m.get32 g.targetImmediateOffset) = page then none else learnedJump m g := by
  have hin : ¬(size < g.guardOffset + 6 ∨ size < g.targetImmediateOffset + 4 ∨ size ≤ target) := by
    omega
  unfold resetGuard
  rw [if_neg hin]
  by_cases hlearned : m g.guardOffset = 0x0F ∧ m (g.guardOffset + 1) = 0x85
  · have hnot : ¬(m g.guardOffset ≠ 0x0F ∨ m (g.guardOffset + 1) ≠ 0x85) := by tauto
    rw [if_neg hnot]
    by_cases hpage : aotGuestPage (m.get32 g.targetImmediateOffset) = page
    · rw [if_neg (not_not.mpr hpage), if_pos hpage, learnedJump, if_neg]
      have hbyte : (((m.set g.guardOffset 0xE9).set32 (g.guardOffset + 1) (BitVec.ofInt 32
          ((target : ℤ) - ((g.guardOffset : ℤ) + 5)))).set (g.guardOffset + 5) 0x90) g.guardOffset =
          0xE9 := by
        rw [set_ne _ _ (by omega), set32_out _ _ (by omega), set_self]
      rw [hbyte]
      exact fun h => absurd h.1 (by decide)
    · rw [if_pos hpage, if_neg hpage]
  · have hnot : m g.guardOffset ≠ 0x0F ∨ m (g.guardOffset + 1) ≠ 0x85 := by tauto
    rw [if_pos hnot, learnedJump, if_neg hlearned, ite_self]

theorem isActive_deactivate (selected : List ℕ) (states : List AotAddressMapState) (i : ℕ) :
    ((deactivate selected states)[i]?.map AotAddressMapState.active).getD false =
      ((states[i]?.map AotAddressMapState.active).getD false && !selected.contains i) := by
  unfold deactivate
  induction selected generalizing states with
  | nil => simp
  | cons j js ih =>
    rw [List.foldl_cons, ih, List.getElem?_modify]
    by_cases hij : j = i
    · subst hij
      cases states[j]? <;> simp
    · cases states[i]? <;> simp [hij, Ne.symm hij]

/-- The entries a retirement of the page selects. -/
def selectedEntries (p : AotCodeCachePlacement) (page : Word) : List ℕ :=
  match findGuestPageState p.guestPages page with
  | none => []
  | some state => state.mapIndices.filter (retiresEntry p page)

theorem retiresEntry_isActive {page : Word} {i : ℕ} (h : retiresEntry p page i = true) :
    p.isActive i = true := by
  unfold retiresEntry at h
  split at h
  · rename_i e state he hstate
    simp only [Bool.and_eq_true] at h
    simp [AotCodeCachePlacement.isActive, hstate, h.1.1]
  · contradiction

/-- What a retirement that is reported as done leaves behind. -/
theorem retireAotGuestPage_retired {guestAddress : Word} {quarantine protectedWritable protectedExecute : Bool}
    (h : (retireAotGuestPage guestAddress quarantine protectedWritable protectedExecute p).2.retired = true) :
    let p' := (retireAotGuestPage guestAddress quarantine protectedWritable protectedExecute p).1
    let page := aotGuestPage guestAddress
    p'.sites = p.sites ∧ p'.addressMap = p.addressMap ∧
      (∀ i, p'.isActive i = (p.isActive i && !(selectedEntries p page).contains i)) ∧
      (selectedEntries p page ≠ [] → p'.memory =
        resetInlineCacheGuardsTargetingPage p.size page p.sites.indirectInlineCacheSites
          (trapEntries p (selectedEntries p page) p.memory)) := by
  intro p' page
  by_cases hplaced : ¬p.placed
  · simp [retireAotGuestPage, hplaced, AotGuestPageRetireResult.retired] at h
  cases hstate : findGuestPageState p.guestPages (aotGuestPage guestAddress) with
  | none => simp [retireAotGuestPage, hplaced, hstate, AotGuestPageRetireResult.retired] at h
  | some state =>
    have hselected : selectedEntries p page = state.mapIndices.filter (retiresEntry p page) := by
      simp only [selectedEntries, page, hstate]
    rw [hselected]
    simp only [p', page, retireAotGuestPage, hstate] at h ⊢
    rw [if_neg hplaced] at h ⊢
    by_cases hnone : state.mapIndices.filter (retiresEntry p (aotGuestPage guestAddress)) = []
    · rw [if_pos hnone, hnone]
      exact ⟨rfl, rfl, by simp [AotCodeCachePlacement.isActive], by simp⟩
    rw [if_neg hnone] at h ⊢
    cases protectedWritable with
    | false => simp [AotGuestPageRetireResult.retired] at h
    | true =>
      cases protectedExecute with
      | false => simp [AotGuestPageRetireResult.retired] at h
      | true => exact ⟨rfl, rfl, fun i => isActive_deactivate _ _ i, fun _ => rfl⟩

/-- The call made the entry inactive. -/
def MadeInactive (p p' : AotCodeCachePlacement) (i : ℕ) : Prop := p.isActive i = true ∧ p'.isActive i = false

/-- A retirement leaves no guard jumping into an entry it made inactive exactly when, before it,
no learned guard with a compared target off the page jumps into an entry of the page. -/
theorem retire_guards_iff {table : Table} (hpush : PushRows table) (hreach : Reachable table p)
    (guestAddress : Word) (quarantine protectedWritable protectedExecute : Bool)
    (hretired : (retireAotGuestPage guestAddress quarantine protectedWritable protectedExecute p).2.retired
      = true) :
    let p' := (retireAotGuestPage guestAddress quarantine protectedWritable protectedExecute p).1
    (∀ site ∈ p'.sites.indirectInlineCacheSites, ∀ g ∈ siteGuards site, ∀ i e, MadeInactive p p' i →
      p'.addressMap[i]? = some e → ¬JumpsInto p'.memory g e) ↔
    ∀ site ∈ p.sites.indirectInlineCacheSites, ∀ g ∈ siteGuards site,
      aotGuestPage (p.memory.get32 g.targetImmediateOffset) ≠ aotGuestPage guestAddress →
      ∀ i ∈ selectedEntries p (aotGuestPage guestAddress), ∀ e, p.addressMap[i]? = some e →
        ¬JumpsInto p.memory g e := by
  intro p'
  obtain ⟨hsites, hmap, hactive, hmemory⟩ := retireAotGuestPage_retired hretired
  have hlaid := hreach.laid hpush
  have hmade : ∀ i, MadeInactive p p' i ↔ i ∈ selectedEntries p (aotGuestPage guestAddress) := by
    intro i
    have hsel : i ∈ selectedEntries p (aotGuestPage guestAddress) → p.isActive i = true := by
      intro hi
      unfold selectedEntries at hi
      split at hi
      · cases hi
      · exact retiresEntry_isActive (List.mem_filter.mp hi).2
    unfold MadeInactive
    rw [hactive i]
    constructor
    · rintro ⟨hp, hp'⟩
      simpa [hp] using hp'
    · intro hi
      exact ⟨hsel hi, by simp [hi]⟩
  rw [hsites, hmap]
  simp only [hmade]
  -- the jump of a guard after the call
  have hjump : selectedEntries p (aotGuestPage guestAddress) ≠ [] →
      ∀ site ∈ p.sites.indirectInlineCacheSites, ∀ g ∈ siteGuards site,
        learnedJump p'.memory g =
          if aotGuestPage (p.memory.get32 g.targetImmediateOffset) = aotGuestPage guestAddress then none
          else learnedJump p.memory g := by
    intro hne site hs g hg
    obtain ⟨e, hof⟩ := hlaid.guardOf hs hg
    have hin := hof.inside hlaid
    have h₂ := hof.shape.guard_eq
    have h₃ := hof.shape.jump_ge
    have hreset : learnedJump (resetGuard p.size (aotGuestPage guestAddress)
        (aotInlineCacheGuardTargetOffset site) p.memory g) g = _ :=
      learnedJump_resetGuard ⟨by omega, by omega⟩ (by omega)
    rw [hmemory hne, ← hreset]
    exact learnedJump_congr hof.shape fun a ha => hlaid.retire_at _ _ _ hs hg ha
  constructor
  · intro h site hs g hg hpage i hi e he hinto
    refine h site hs g hg i e hi he ?_
    obtain ⟨d, hd, hrange⟩ := hinto
    exact ⟨d, by rw [hjump (List.ne_nil_of_mem hi) site hs g hg, if_neg hpage, hd], hrange⟩
  · intro h site hs g hg i e hi he hinto
    obtain ⟨d, hd, hrange⟩ := hinto
    rw [hjump (List.ne_nil_of_mem hi) site hs g hg] at hd
    split_ifs at hd with hpage
    exact h site hs g hg hpage i hi e he ⟨d, hd, hrange⟩

/-- With nothing learned, nothing is left behind. -/
theorem retire_guards_fresh :
    let p' := (retireAotGuestPage 0x2000 false true true samplePlacement).1
    ∀ site ∈ p'.sites.indirectInlineCacheSites, ∀ g ∈ siteGuards site, ∀ i e,
      MadeInactive samplePlacement p' i → p'.addressMap[i]? = some e → ¬JumpsInto p'.memory g e := by
  have hnone : ∀ site ∈ samplePlacement.sites.indirectInlineCacheSites, ∀ g ∈ siteGuards site,
      learnedJump samplePlacement.memory g = none := by decide +kernel
  refine (retire_guards_iff pushRows_sampleTable reachable_samplePlacement 0x2000 false true true
    (by decide +kernel)).mpr ?_
  rintro site hs g hg - i - e - ⟨d, hd, -⟩
  rw [hnone site hs g hg] at hd
  contradiction

/-- The guard for an instruction that starts on the page before and reaches into the retired page
keeps its jump into the entry that is gone. -/
theorem retire_keeps_spanning_guard :
    Reachable sampleTable sampleLearned ∧
    (retireAotGuestPage 0x2000 false true true sampleLearned).2.retired = true ∧
    let p' := (retireAotGuestPage 0x2000 false true true sampleLearned).1
    ∃ site ∈ p'.sites.indirectInlineCacheSites, ∃ g ∈ siteGuards site, ∃ i e,
      MadeInactive sampleLearned p' i ∧ p'.addressMap[i]? = some e ∧ JumpsInto p'.memory g e := by
  refine ⟨reachable_sampleLearned, by decide +kernel, ?_⟩
  have hsite : ∃ site ∈ (retireAotGuestPage 0x2000 false true true
      sampleLearned).1.sites.indirectInlineCacheSites, ∃ g ∈ siteGuards site, learnedJump
      (retireAotGuestPage 0x2000 false true true sampleLearned).1.memory g = some 12 := by decide +kernel
  obtain ⟨site, hs, g, hg, hjump⟩ := hsite
  exact ⟨site, hs, g, hg, 1, ⟨0x1FFE, 12, 5, 5⟩, ⟨by decide +kernel, by decide +kernel⟩,
    by decide +kernel, 12, hjump, by decide, by decide⟩

end Repiu.Engine
