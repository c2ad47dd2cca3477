import Repiu.Engine.RetiredCode
import Repiu.Runtime.AddressMap
import Repiu.Runtime.SiteOffsets

/-!
# What an append registers

A dynamic append registers the entries and sites of its image behind the old ones,
their offsets moved by the old size, and relinks the inactive entries of the old code
to the fresh ones.  An append that is refused changes nothing but the generation.
-/

namespace Repiu.Engine

open Repiu.Memory Repiu.Runtime Repiu.X86

/-! ## Moved sites -/

/-- The sites of one kind behind an append: the old ones, and the new ones with every offset moved
by `base` into the appended range.  A zero that stands for a missing operand stays. -/
def Rebased {α : Type} (offsets : α → SiteOffsets) (base size : ℕ) (old new registered : List α) : Prop :=
  ∃ moved, registered = old ++ moved ∧
    List.Forall₂ (fun s t => offsets t = (offsets s).move base) new moved ∧
    ∀ t ∈ moved, (∀ o ∈ (offsets t).required, base ≤ o ∧ o < base + size) ∧
      ∀ o ∈ (offsets t).optional, o = 0 ∨ (base ≤ o ∧ o < base + size)

theorem rebased_append {α : Type} {offsets : α → SiteOffsets} {move : α → α} {base size : ℕ}
    {old new : List α} (hmove : ∀ s, offsets (move s) = (offsets s).move base)
    (hin : ∀ s ∈ new, (offsets s).In size) :
    Rebased offsets base size old new (old ++ new.map move) := by
  refine ⟨new.map move, rfl, ?_, ?_⟩
  · rw [List.forall₂_map_right_iff]
    exact List.forall₂_same.mpr fun s _ => hmove s
  intro t ht
  obtain ⟨s, hs, rfl⟩ := List.mem_map.mp ht
  rw [hmove s]
  refine ⟨?_, ?_⟩
  · intro o ho
    obtain ⟨o', ho', rfl⟩ := List.mem_map.mp ho
    have := hin s hs o' (List.mem_append_left _ ho')
    omega
  · intro o ho
    obtain ⟨o', ho', rfl⟩ := List.mem_map.mp ho
    have := hin s hs o' (List.mem_append_right _ ho')
    unfold moveOptional
    split_ifs
    · exact Or.inr (by omega)
    · exact Or.inl rfl

theorem offsets_move_inlineCache (base : ℕ) (s : AotIndirectInlineCacheSite) :
    (s.move base).offsets = s.offsets.move base := by
  have hentry : ∀ e : AotInlineCacheEntry, (e.move base).offsets = e.offsets.map (base + ·) :=
    fun _ => rfl
  simp [AotIndirectInlineCacheSite.offsets, AotIndirectInlineCacheSite.move, SiteOffsets.move,
    List.flatMap_map, List.map_flatMap, hentry]

/-- The offsets of a guard chain lie in its slot. -/
theorem chainIn_offsets {site : AotIndirectInlineCacheSite} {lo hi : ℕ} (h : ChainIn site lo hi) :
    site.offsets.In hi := by
  have := h.start_eq
  have := h.first_immediate
  have := h.first_guard
  have := h.first_jump
  have := h.guards.le
  have := h.miss_ge
  have := h.miss_lt
  intro o ho
  simp only [SiteOffsets.all, AotIndirectInlineCacheSite.offsets, List.mem_append, List.mem_cons,
    List.not_mem_nil, or_false, List.mem_flatMap] at ho
  rcases ho with (ho | ⟨g, hg, ho⟩) | ho
  · omega
  · have := h.guards.bounds hg
    simp only [AotInlineCacheEntry.offsets, List.mem_cons, List.not_mem_nil, or_false] at ho
    omega
  · -- a probe is where the guards jump to
    by_cases hprobe : site.missProbeCacheOffset = 0
    · omega
    · have : aotInlineCacheGuardTargetOffset site = site.missProbeCacheOffset := if_pos hprobe
      omega

/-! ## Relinked entries -/

section Relink

variable {p : AotCodeCachePlacement} {guestEntry : Word} {image : AotCodeCacheImage}

/-- The entry starts with a jump to an activated entry of the image with its guest address. -/
def JumpsToFresh (p : AotCodeCachePlacement) (guestEntry : Word) (image : AotCodeCacheImage) (m : Memory)
    (stale : AotAddressMapEntry) : Prop :=
  m stale.cacheOffset = 0xE9 ∧ ∃ fresh ∈ image.addressMap, activatesEntry p guestEntry fresh = true ∧
    fresh.guestAddress = stale.guestAddress ∧
    relativeTarget m (stale.cacheOffset + 1) = p.size + fresh.cacheOffset

/-- A byte of the old code that a relink may have written. -/
def InRelinked (p : AotCodeCachePlacement) (jumps : AotAddressMapEntry → Prop) (a : ℕ) : Prop :=
  ∃ i stale, p.addressMap[i]? = some stale ∧ p.isActive i = false ∧ 5 ≤ stale.emittedLength ∧
    stale.cacheOffset ≤ a ∧ a < stale.cacheOffset + 5 ∧ jumps stale

/-- One relink: it writes a jump over its entry and leaves those of the other entries. -/
theorem relinked_step (hlaid : Laid p) {m₀ m : Memory}
    (h : ∀ a, m a = m₀ a ∨ InRelinked p (JumpsToFresh p guestEntry image m) a)
    {fresh : AotAddressMapEntry} (hfresh : fresh ∈ image.addressMap)
    (hactive : activatesEntry p guestEntry fresh = true) {index : ℕ}
    (hindex : index ∈ p.inactiveByGuestAddress fresh.guestAddress) (a : ℕ) :
    relinkEntry p (p.size + fresh.cacheOffset) m index a = m₀ a ∨
      InRelinked p (JumpsToFresh p guestEntry image
        (relinkEntry p (p.size + fresh.cacheOffset) m index)) a := by
  have hguest := (List.mem_filter.mp hindex).2
  unfold relinkEntry
  cases hstale : p.addressMap[index]? with
  | none => exact h a
  | some stale =>
    simp only
    split_ifs with hskip
    · exact h a
    rw [not_or, not_or, not_or, not_lt, not_lt, not_le] at hskip
    obtain ⟨hinactive, hlen, hlo, hhi⟩ := hskip
    rw [hstale] at hguest
    have hsame : fresh.guestAddress = stale.guestAddress := by simpa [eq_comm] using hguest
    set relative : ℤ := ((p.size + fresh.cacheOffset : ℕ) : ℤ) - ((stale.cacheOffset : ℤ) + 5) with hrel
    set m' := (m.set stale.cacheOffset 0xE9).set32 (stale.cacheOffset + 1) (BitVec.ofInt 32 relative)
      with hm'
    have hout : ∀ b, b < stale.cacheOffset ∨ stale.cacheOffset + 5 ≤ b → m' b = m b := by
      intro b hb
      rw [hm', set32_out _ _ (by omega), set_ne _ _ (by omega)]
    have hjump : JumpsToFresh p guestEntry image m' stale := by
      refine ⟨?_, fresh, hfresh, hactive, hsame, ?_⟩
      · rw [hm', set32_out _ _ (by omega), set_self]
      · refine relativeTarget_of_get32 ?_ ?_ ?_
        · rw [hm', get32_set32, hrel]
          congr 1
        · push_cast
          omega
        · push_cast
          omega
    by_cases hin : stale.cacheOffset ≤ a ∧ a < stale.cacheOffset + 5
    · exact Or.inr ⟨index, stale, hstale, by simpa using hinactive, hlen, hin.1, hin.2, hjump⟩
    rcases h a with heq | ⟨i, old, hold, hi, hlen', hge, hlt, hfirst, g, hg, hgactive, hgsame, htarget⟩
    · exact Or.inl ((hout a (by omega)).trans heq)
    refine Or.inr ⟨i, old, hold, hi, hlen', hge, hlt, ?_⟩
    by_cases hi' : i = index
    · subst hi'
      obtain rfl : stale = old := Option.some.inj (hstale.symm.trans hold)
      exact hjump
    -- another entry keeps its jump
    have hapart := hlaid.index_apart hold hstale hi'
    unfold AotAddressMapEntry.limit at hapart
    refine ⟨(hout _ (by omega)).trans hfirst, g, hg, hgactive, hgsame, ?_⟩
    rw [← htarget, relativeTarget, relativeTarget, get32_congr fun b hb hb' => hout b (by omega)]

/-- All relinks: whatever they change in the old code belongs to a relinked entry. -/
theorem relinked_entries (hlaid : Laid p) (guestEntry : Word) (image : AotCodeCacheImage) (m : Memory) :
    ∀ a, relinkEntries p guestEntry image m a = m a ∨
      InRelinked p (JumpsToFresh p guestEntry image (relinkEntries p guestEntry image m)) a := by
  unfold relinkEntries
  refine List.foldlRecOn
    (motive := fun m' => ∀ a, m' a = m a ∨ InRelinked p (JumpsToFresh p guestEntry image m') a)
    image.addressMap _ (fun a => Or.inl rfl) fun m' hm' fresh hfresh => ?_
  split_ifs with hactive
  swap
  · exact hm'
  refine List.foldlRecOn
    (motive := fun m' => ∀ a, m' a = m a ∨ InRelinked p (JumpsToFresh p guestEntry image m') a)
    (p.inactiveByGuestAddress fresh.guestAddress) _ hm' fun m' hm' index hindex => ?_
  exact relinked_step hlaid hm' hfresh hactive hindex

end Relink

/-! ## Appends -/

/-- The entry starts with a jump to the only new entry of its guest address, and that is active. -/
def JumpsToNewEntry (p p' : AotCodeCachePlacement) (stale : AotAddressMapEntry) : Prop :=
  p'.memory stale.cacheOffset = 0xE9 ∧ ∃ j fresh, p.addressMap.length ≤ j ∧
    p'.addressMap[j]? = some fresh ∧ p'.isActive j = true ∧ fresh.guestAddress = stale.guestAddress ∧
    relativeTarget p'.memory (stale.cacheOffset + 1) = fresh.cacheOffset ∧
    ∀ j' fresh', p.addressMap.length ≤ j' → p'.addressMap[j']? = some fresh' →
      fresh'.guestAddress = stale.guestAddress → j' = j

/-- What an append that succeeded has made of a placement and an image. -/
structure AppendedAt (p : AotCodeCachePlacement) (image : AotCodeCacheImage) (p' : AotCodeCachePlacement) :
    Prop where
  size : p'.size = p.size + image.bytes.length
  entries : Rebased AotAddressMapEntry.offsets p.size image.bytes.length p.addressMap image.addressMap
    p'.addressMap
  fixups : Rebased AotCodeCacheFixup.offsets p.size image.bytes.length p.sites.fixups image.code.fixups
    p'.sites.fixups
  inlineCaches : Rebased AotIndirectInlineCacheSite.offsets p.size image.bytes.length
    p.sites.indirectInlineCacheSites image.code.indirectInlineCacheSites p'.sites.indirectInlineCacheSites
  returns : Rebased AotDbtReturnDispatchSite.offsets p.size image.bytes.length
    p.sites.dbtReturnDispatchSites image.code.dbtReturnDispatchSites p'.sites.dbtReturnDispatchSites
  hles : Rebased AotDbtHleDispatchSite.offsets p.size image.bytes.length
    p.sites.dbtHleDispatchSites image.code.dbtHleDispatchSites p'.sites.dbtHleDispatchSites
  edges : Rebased AotDbtDirectEdgeDispatchSite.offsets p.size image.bytes.length
    p.sites.dbtDirectEdgeDispatchSites image.code.dbtDirectEdgeDispatchSites
    p'.sites.dbtDirectEdgeDispatchSites
  jumpTables : Rebased AotJumpTableSite.offsets p.size image.bytes.length
    p.sites.jumpTableSites image.code.jumpTableSites p'.sites.jumpTableSites
  pops : Rebased AotGuardedSegmentPopSite.offsets p.size image.bytes.length
    p.sites.guardedSegmentPopSites image.code.guardedSegmentPopSites p'.sites.guardedSegmentPopSites
  reads : Rebased AotGuardedSegmentReadSite.offsets p.size image.bytes.length
    p.sites.guardedSegmentReadSites image.code.guardedSegmentReadSites p'.sites.guardedSegmentReadSites
  loads : Rebased AotGuardedSegmentLoadSite.offsets p.size image.bytes.length
    p.sites.guardedSegmentLoadSites image.code.guardedSegmentLoadSites p'.sites.guardedSegmentLoadSites
  overrides : Rebased AotSegmentOverrideSite.offsets p.size image.bytes.length
    p.sites.segmentOverrideSites image.code.segmentOverrideSites p'.sites.segmentOverrideSites
  safePoints : Rebased AotTimerSafePointSite.offsets p.size image.bytes.length
    p.sites.timerSafePointSites image.code.timerSafePointSites p'.sites.timerSafePointSites
  probes : Rebased AotDirectReturnProbeSite.offsets p.size image.bytes.length
    p.sites.directReturnProbeSites image.code.directReturnProbeSites p'.sites.directReturnProbeSites
  relinked : ∀ a < p.size, p'.memory a = p.memory a ∨ InRelinked p (JumpsToNewEntry p p') a

/-- A placement whose maps, sites, code and size are those of another. -/
structure SameMaps (p p' : AotCodeCachePlacement) : Prop where
  addressMap : p'.addressMap = p.addressMap
  addressMapStates : p'.addressMapStates = p.addressMapStates
  inactiveMapIndices : p'.inactiveMapIndices = p.inactiveMapIndices
  guestPages : p'.guestPages = p.guestPages
  sites : p'.sites = p.sites
  size : p'.size = p.size
  memory : p'.memory = p.memory

/-- The only entry of a guest address among the new ones. -/
theorem new_entry_unique {map : List AotAddressMapEntry}
    (hdistinct : map.Pairwise fun e e' => e.guestAddress ≠ e'.guestAddress) {i j : ℕ}
    {e e' : AotAddressMapEntry} (he : map[i]? = some e) (he' : map[j]? = some e')
    (hsame : e.guestAddress = e'.guestAddress) : i = j := by
  obtain ⟨hi, rfl⟩ := List.getElem?_eq_some_iff.mp he
  obtain ⟨hj, rfl⟩ := List.getElem?_eq_some_iff.mp he'
  have hpair := List.pairwise_iff_getElem.mp hdistinct
  by_contra hne
  rcases Nat.lt_or_gt_of_ne hne with hlt | hlt
  · exact hpair i j hi hj hlt hsame
  · exact hpair j i hj hi hlt hsame.symm

section Publish

variable {p : AotCodeCachePlacement} {request : AppendRequest} {image : AotCodeCacheImage}

/-- The placement an append leaves behind, given the memory. -/
def published (p : AotCodeCachePlacement) (request : AppendRequest) (image : AotCodeCacheImage)
    (memory : Memory) : AotCodeCachePlacement :=
  { registerImage p { p with nextGeneration := p.nextGeneration + 1, memory := memory } request
      p.nextGeneration image with
    sites := registerSites p.sites p.size image.code
    size := p.size + image.bytes.length }

theorem published_spec (p : AotCodeCachePlacement) (request : AppendRequest) (image : AotCodeCacheImage)
    (memory : Memory) :
    (published p request image memory).addressMap =
        p.addressMap ++ image.addressMap.map (AotAddressMapEntry.move p.size) ∧
      (published p request image memory).addressMapStates =
        p.addressMapStates ++ image.addressMap.map (fun entry =>
          { generation := p.nextGeneration
            active := activatesEntry p request.guestEntry entry
            tracksGuestBytes := aotAddressMapTracksGuestBytes entry request.excludedRanges }) ∧
      (published p request image memory).memory = memory := by
  obtain ⟨hmap, hstates, hsame⟩ := registerImage_spec p
    { p with nextGeneration := p.nextGeneration + 1, memory := memory } request p.nextGeneration image
  exact ⟨hmap, hstates, hsame.memory⟩

/-- A jump to a fresh entry of the image is one to the only new entry of its address. -/
theorem JumpsToFresh.newEntry (hlaid : Laid p) {memory : Memory}
    (hdistinct : image.addressMap.Pairwise fun e e' => e.guestAddress ≠ e'.guestAddress)
    {stale : AotAddressMapEntry} (h : JumpsToFresh p request.guestEntry image memory stale) :
    JumpsToNewEntry p (published p request image memory) stale := by
  obtain ⟨hfirst, fresh, hfresh, hactive, hsame, htarget⟩ := h
  obtain ⟨hmap, hstates, hmemory⟩ := published_spec p request image memory
  obtain ⟨n, hn, rfl⟩ := List.getElem_of_mem hfresh
  have hget : ∀ j, p.addressMap.length ≤ j → (published p request image memory).addressMap[j]? =
      (image.addressMap[j - p.addressMap.length]?).map (AotAddressMapEntry.move p.size) := by
    intro j hj
    rw [hmap, List.getElem?_append_right hj, List.getElem?_map]
  refine ⟨by rwa [hmemory], p.addressMap.length + n, image.addressMap[n].move p.size,
    Nat.le_add_right _ _, ?_, ?_, hsame, ?_, ?_⟩
  · rw [hget _ (Nat.le_add_right _ _), Nat.add_sub_cancel_left, List.getElem?_eq_getElem hn,
      Option.map_some]
  · rw [AotCodeCachePlacement.isActive, hstates,
      List.getElem?_append_right (by rw [hlaid.states]; exact Nat.le_add_right _ _), hlaid.states,
      Nat.add_sub_cancel_left, List.getElem?_map, List.getElem?_eq_getElem hn]
    simpa using hactive
  · rw [hmemory, htarget]
    simp only [AotAddressMapEntry.move]
    push_cast
    rfl
  · intro j' fresh' hj' hfresh' hsame'
    rw [hget j' hj'] at hfresh'
    obtain ⟨e, he, rfl⟩ := Option.map_eq_some_iff.mp hfresh'
    have := new_entry_unique hdistinct he (List.getElem?_eq_getElem hn) (hsame'.trans hsame.symm)
    omega

/-- A published image: every site is moved, and only relinked entries change in the old code. -/
theorem appendedAt_published (hlaid : Laid p) {env : AppendEnvironment} {resolved : Memory}
    (himage : ImageSpec image.code image.addressMap) (hoffsets : image.code.OffsetsIn)
    (hdistinct : image.addressMap.Pairwise fun e e' => e.guestAddress ≠ e'.guestAddress)
    (hresolved : resolveImage p.size (p.baseAddress + p.size) env.host
      (request.segmentTable.getD .empty) image
      (p.memory.setBytes p.size (closeInactiveEntries p request.guestEntry image)) = .ok resolved) :
    AppendedAt p image
      (published p request image (relinkEntries p request.guestEntry image resolved)) := by
  set p' := published p request image (relinkEntries p request.guestEntry image resolved) with hp'
  obtain ⟨hmap, hstates, hmemory⟩ :=
    published_spec p request image (relinkEntries p request.guestEntry image resolved)
  have hsites : ∀ s ∈ image.code.siteOffsets, s.In image.bytes.length := hoffsets
  simp only [Fragment.siteOffsets, List.forall_mem_append, List.forall_mem_map] at hsites
  obtain ⟨⟨⟨⟨⟨⟨⟨⟨⟨⟨hfixups, hreturns⟩, hhles⟩, hedges⟩, htables⟩, hpops⟩, hreads⟩, hloads⟩, hoverrides⟩,
    hpoints⟩, hprobes⟩ := hsites
  refine ⟨rfl, ?_, rebased_append (fun _ => rfl) hfixups, ?_, rebased_append (fun _ => rfl) hreturns,
    rebased_append (fun _ => rfl) hhles, rebased_append (fun _ => rfl) hedges,
    rebased_append (fun _ => rfl) htables, rebased_append (fun _ => rfl) hpops,
    rebased_append (fun _ => rfl) hreads, rebased_append (fun _ => rfl) hloads,
    rebased_append (fun _ => rfl) hoverrides, rebased_append (fun _ => rfl) hpoints,
    rebased_append (fun _ => rfl) hprobes, ?_⟩
  · rw [hp', hmap]
    refine rebased_append (fun _ => rfl) fun e he => ?_
    have := himage.sites.entries_in e he
    unfold AotAddressMapEntry.limit at this
    show ∀ o ∈ [e.cacheOffset], o < image.code.bytes.length
    simp only [List.mem_singleton, forall_eq]
    omega
  · refine rebased_append (offsets_move_inlineCache p.size) fun s hs => ?_
    obtain ⟨e, he, hin⟩ := himage.sites.chains_in s hs
    exact (chainIn_offsets hin).mono (himage.sites.entries_in e he).2
  · intro a ha
    rw [hp', hmemory, ← resolveImage_before hresolved ha]
    rcases relinked_entries hlaid request.guestEntry image resolved a with heq |
      ⟨i, stale, hstale, hi, hlen, hge, hlt, hjumps⟩
    · exact Or.inl heq
    · exact Or.inr ⟨i, stale, hstale, hi, hlen, hge, hlt, hjumps.newEntry hlaid hdistinct⟩

end Publish

/-- A dynamic append that succeeds has moved every offset of every entry and site of its image by the
old size, into the appended range, and every byte it has changed in the old code belongs to an
inactive entry that now jumps to the new active entry of its guest address; one that neither succeeds
nor reports itself unsafe leaves the maps, the sites, the code and the size. -/
theorem append_rebases {table : Table} (hpush : PushRows table) {p : AotCodeCachePlacement}
    (hp : Reachable table p) {emission : Host} {fuel : ℕ} {request : AppendRequest}
    {env : AppendEnvironment} {r : AotCodeCachePlacement × AotDynamicAppendResult}
    (h : appendDynamicAotTranslation table emission fuel request env p = some r) :
    (r.2.status = .appended → ∃ plan image,
      buildAotTranslationPlanFromEntry table fuel (arenaView p request) request.guestEntry
        request.excludedRanges = some plan ∧
      buildAotCodeCacheImage ⟨table, emission, appendOptions p⟩ plan = some image ∧
      AppendedAt p image r.1) ∧
    (r.2.status ≠ .appended → r.2.status.unsafeFailure = false → SameMaps p r.1) := by
  have hlaid := hp.laid hpush
  rcases appendDynamicAotTranslation_cases h with ⟨hsame, hstatus⟩ | ⟨plan, image, hplan, hbuilt, -, -, rfl⟩
  · refine ⟨fun happended => absurd happended hstatus, fun _ _ => ?_⟩
    rw [hsame]
    exact ⟨rfl, rfl, rfl, rfl, rfl, rfl, rfl⟩
  have hemittable : EmittablePlan table plan := ⟨hpush, planned_records hplan⟩
  have himage := imageSpec_buildAotCodeCacheImage hemittable hbuilt
  have hdistinct := (addressMap_wellFormed hemittable hbuilt).1.imp fun hpair => hpair.2.2
  rcases publishImage_cases request env image p with
    ⟨generation, heq, hstatus⟩ | ⟨hfailed, -⟩ | ⟨hstatus, resolved, hresolved, heq⟩
  · refine ⟨fun happended => absurd happended hstatus, fun _ _ => ?_⟩
    rw [heq]
    exact ⟨rfl, rfl, rfl, rfl, rfl, rfl, rfl⟩
  · refine ⟨fun happended => ?_, fun _ hsafe => ?_⟩
    · rw [happended] at hfailed
      cases hfailed
    · rw [hsafe] at hfailed
      cases hfailed
  · refine ⟨fun _ => ⟨plan, image, hplan, hbuilt, ?_⟩, fun hnot => absurd hstatus hnot⟩
    rw [heq]
    exact appendedAt_published hlaid himage (offsetsIn_buildAotCodeCacheImage hbuilt) hdistinct hresolved

/-- The guest as it is translated again from `0x1FFC`. -/
def sampleRequest : AppendRequest :=
  { runtimeBase := 0x1FFC
    runtimeSize := 24
    arena := [0x8C, 0xD8, 0xB8, 0x00, 0x00, 0x00, 0x00, 0xFF, 0xE0] ++ List.replicate 15 0
    guestEntry := 0x1FFC }

/-- The sample guest with its first page retired, translated again. -/
def sampleReappended : AotCodeCachePlacement × AotDynamicAppendResult :=
  (appendDynamicAotTranslation sampleTable {} 8 sampleRequest {} samplePageRetired).get (by decide +kernel)

theorem append_sampleReappended :
    appendDynamicAotTranslation sampleTable {} 8 sampleRequest {} samplePageRetired =
      some sampleReappended := (Option.some_get _).symm

attribute [irreducible] sampleReappended

theorem reachable_samplePageRetired : Reachable sampleTable samplePageRetired :=
  (@safeRun_samplePageRetired (fun _ _ => True) trivial).reachable

/-- The append behind the retired page. -/
theorem append_rebases_sample :
    sampleReappended.2.status = .appended ∧ ∃ image, AppendedAt samplePageRetired image sampleReappended.1 := by
  have hstatus : sampleReappended.2.status = .appended := by decide +kernel
  obtain ⟨plan, image, -, -, happended⟩ :=
    (append_rebases pushRows_sampleTable reachable_samplePageRetired append_sampleReappended).1 hstatus
  exact ⟨hstatus, image, happended⟩

/-- Not every offset is the image's plus the old size: the new jump has no probe in front of its miss
path, and the zero that says so stays while the code moves by 92 bytes. -/
theorem absent_probe_stays_zero :
    ¬ ∀ (p : AotCodeCachePlacement) (request : AppendRequest) (r : AotCodeCachePlacement × AotDynamicAppendResult),
      Reachable sampleTable p → appendDynamicAotTranslation sampleTable {} 8 request {} p = some r →
      r.2.status = .appended →
      ∃ (image : AotCodeCacheImage) (moved : List AotIndirectInlineCacheSite),
        r.1.sites.indirectInlineCacheSites = p.sites.indirectInlineCacheSites ++ moved ∧
        List.Forall₂ (fun s t => t.offsets.all = s.offsets.all.map (p.size + ·))
          image.code.indirectInlineCacheSites moved := by
  intro hclaim
  obtain ⟨image, moved, heq, hall⟩ := hclaim samplePageRetired sampleRequest sampleReappended
    reachable_samplePageRetired append_sampleReappended (by decide +kernel)
  have hold : samplePageRetired.sites.indirectInlineCacheSites.map
      AotIndirectInlineCacheSite.missProbeCacheOffset = [0] := by decide +kernel
  have hnew : sampleReappended.1.sites.indirectInlineCacheSites.map
      AotIndirectInlineCacheSite.missProbeCacheOffset = [0, 0] := by decide +kernel
  have hsize : samplePageRetired.size = 92 := by decide +kernel
  rw [heq, List.map_append, hold] at hnew
  have hmoved : moved.map AotIndirectInlineCacheSite.missProbeCacheOffset = [0] :=
    List.tail_eq_of_cons_eq hnew
  obtain ⟨t, rest, rfl, ht, -⟩ := List.map_eq_cons_iff.mp hmoved
  obtain ⟨s, _, hst, -, -⟩ := List.forall₂_cons_right_iff.mp hall
  -- the probe is the last of a site's offsets
  have hlast : ∀ x : AotIndirectInlineCacheSite, x.offsets.all.getLast? = some x.missProbeCacheOffset :=
    fun _ => List.getLast?_concat
  have hsame := hlast t
  rw [hst, List.getLast?_map, hlast s, hsize, ht, Option.map_some, Option.some.injEq] at hsame
  omega

end Repiu.Engine
