import Repiu.Engine.AddressIndex
import Repiu.Engine.SampleGuest

/-!
# Lookups over placement histories

Every history of a placed cache keeps the address index in step with the map, so
that the indexed lookups and the scans agree, and what a guest address is found
at is an active entry for it.
-/

namespace Repiu.Engine

open Repiu.Runtime Repiu.X86

/-! ## Histories with the index -/

/-- The index behind `InitializeAotPageCoherence`: the map is complete before the first entry is
registered. -/
def initializedIndex (map : List AotAddressMapEntry) : AotCacheAddressIndex :=
  ensureAotCacheAddressIndex map ((List.range map.length).foldl
    (fun index i => appendAotCacheAddressIndexEntry map i index) (invalidateAotCacheAddressIndex {}))

/-- Each new entry is registered as it is pushed. -/
def pushIndexEntries (map : List AotAddressMapEntry) (index : AotCacheAddressIndex) :
    List AotAddressMapEntry → AotCacheAddressIndex
  | [] => index
  | entry :: entries =>
    pushIndexEntries (map ++ [entry])
      (appendAotCacheAddressIndexEntry (map ++ [entry]) map.length index) entries

/-- The index behind an operation: an append that published its entries ends with
`EnsureAotCacheAddressIndex`, nothing else touches the index. -/
def indexAfter (p p' : AotCodeCachePlacement) (index : AotCacheAddressIndex) : AotCacheAddressIndex :=
  if p'.addressMap.length = p.addressMap.length then index
  else ensureAotCacheAddressIndex p'.addressMap
    (pushIndexEntries p.addressMap index (p'.addressMap.drop p.addressMap.length))

/-- The placements that operations lead to, with their index. -/
inductive IndexedReachable (table : Table) : AotCodeCachePlacement → AotCacheAddressIndex → Prop
  | place {p : AotCodeCachePlacement} : Nonempty (Places table p) →
      IndexedReachable table p (initializedIndex p.addressMap)
  | step {p p' : AotCodeCachePlacement} {index : AotCacheAddressIndex} {op : Operation} {failed : Bool} :
      IndexedReachable table p index → op.apply table p = some (p', failed) →
      IndexedReachable table p' (indexAfter p p' index)

theorem IndexedReachable.reachable {table : Table} {p : AotCodeCachePlacement} {index : AotCacheAddressIndex}
    (h : IndexedReachable table p index) : Reachable table p := by
  induction h with
  | place hp => exact .place hp
  | step _ hstep ih => exact .step ih hstep

/-! ## The index stays valid -/

theorem soundIndex_initializedIndex (map : List AotAddressMapEntry) :
    SoundIndex map (initializedIndex map) ∧ (initializedIndex map).indexedEntryCount = map.length := by
  apply SoundIndex.ensure
  generalize List.range map.length = l
  have hloop : ∀ index, SoundIndex map index →
      SoundIndex map (l.foldl (fun index i => appendAotCacheAddressIndexEntry map i index) index) := by
    induction l with
    | nil => exact fun index h => h
    | cons i l ih => exact fun index h => ih _ (h.append i)
  exact hloop _ (soundIndex_invalidate map {})

theorem SoundIndex.pushIndexEntries {map : List AotAddressMapEntry} {index : AotCacheAddressIndex}
    (h : SoundIndex map index) (entries : List AotAddressMapEntry) :
    SoundIndex (map ++ entries) (pushIndexEntries map index entries) := by
  induction entries generalizing map index with
  | nil =>
    rw [List.append_nil]
    exact h
  | cons entry entries ih =>
    have := ih ((h.push entry).append map.length)
    rw [List.append_assoc, List.singleton_append] at this
    exact this

/-- The operations only add to the address map. -/
theorem apply_addressMap {table : Table} {p p' : AotCodeCachePlacement} {op : Operation} {failed : Bool}
    (h : op.apply table p = some (p', failed)) : ∃ added, p'.addressMap = p.addressMap ++ added := by
  rcases apply_cases h with hkept | ⟨emission, fuel, plan, image, resolved, request, env, -, -, -, -, rfl⟩
  · exact ⟨[], by rw [hkept.addressMap, List.append_nil]⟩
  · exact ⟨_, (registerImage_spec p _ request p.nextGeneration image).1⟩

theorem IndexedReachable.soundIndex {table : Table} {p : AotCodeCachePlacement}
    {index : AotCacheAddressIndex} (h : IndexedReachable table p index) :
    SoundIndex p.addressMap index ∧ index.indexedEntryCount = p.addressMap.length := by
  induction h with
  | place _ => exact soundIndex_initializedIndex _
  | @step p p' index op failed _ hstep ih =>
    obtain ⟨added, hadded⟩ := apply_addressMap hstep
    unfold indexAfter
    split_ifs with hlength
    · -- nothing was added
      rw [hadded, List.length_append, Nat.add_eq_left, List.length_eq_zero_iff] at hlength
      rw [hadded, hlength, List.append_nil]
      exact ih
    · rw [hadded, List.drop_left]
      exact (ih.1.pushIndexEntries added).ensure

/-! ## What every placement records -/

/-- The bookkeeping of the lookups: the inactive entries are recorded, and the cache has 32-bit
offsets. -/
structure Recorded (p : AotCodeCachePlacement) : Prop where
  states : p.addressMapStates.length = p.addressMap.length
  inactive : InactiveRecorded p

theorem Recorded.register {p : AotCodeCachePlacement} (h : Recorded p) (requestedPage : Word)
    (entry : AotAddressMapEntry) (state : AotAddressMapState) :
    Recorded (registerAotAddressMap requestedPage p entry state) := by
  refine ⟨by simp [registerAotAddressMap, h.states], ?_⟩
  intro i hi hinactive
  simp only [registerAotAddressMap, AotCodeCachePlacement.isActive, List.length_append,
    List.length_singleton] at hi hinactive ⊢
  rcases Nat.lt_or_ge i p.addressMap.length with hlt | hge
  · rw [List.getElem?_append_left (by rw [h.states]; exact hlt)] at hinactive
    have := h.inactive i hlt hinactive
    split_ifs
    · exact this
    · exact List.mem_append_left _ this
  · have heq : i = p.addressMap.length := by omega
    rw [List.getElem?_append_right (by rw [h.states]; exact hge), heq, h.states, Nat.sub_self,
      List.getElem?_cons_zero, Option.map_some, Option.getD_some] at hinactive
    rw [if_neg (by simp [hinactive]), heq]
    exact List.mem_append_right _ List.mem_cons_self

theorem Recorded.registerAll {p : AotCodeCachePlacement} (h : Recorded p) (page : AotAddressMapEntry → Word)
    (entry : AotAddressMapEntry → AotAddressMapEntry) (state : AotAddressMapEntry → AotAddressMapState)
    (l : List AotAddressMapEntry) :
    Recorded (l.foldl (fun p e => registerAotAddressMap (page e) p (entry e) (state e)) p) := by
  induction l generalizing p with
  | nil => exact h
  | cons e l ih => exact ih (h.register (page e) (entry e) (state e))

theorem capacity_registerAll (page : AotAddressMapEntry → Word)
    (entry : AotAddressMapEntry → AotAddressMapEntry) (state : AotAddressMapEntry → AotAddressMapState)
    (l : List AotAddressMapEntry) (p : AotCodeCachePlacement) :
    (l.foldl (fun p e => registerAotAddressMap (page e) p (entry e) (state e)) p).capacity =
      p.capacity := by
  induction l generalizing p with
  | nil => rfl
  | cons e l ih => exact ih _

/-- The cache has 32-bit offsets. -/
structure Sized (p : AotCodeCachePlacement) : Prop where
  fits : p.size ≤ p.capacity
  word : p.capacity < 2 ^ 32

theorem Reachable.recorded {table : Table} {p : AotCodeCachePlacement} (h : Reachable table p) :
    Recorded p ∧ Sized p := by
  induction h with
  | place hp =>
    obtain ⟨base, memory, -, hbytes, -, heq⟩ := placeAotCodeCache_eq_some hp.some.placed
    rw [heq]
    have hcap := capacity_registerAll (fun e => aotGuestPage e.guestAddress) id
      (fun _ => ⟨1, true, true⟩) hp.some.image.addressMap
      { placedImage base memory hp.some.image with nextGeneration := 2 }
    have hsame := (initializeAotPageCoherence_spec (placedImage base memory hp.some.image)
      hp.some.image.addressMap).2.2
    refine ⟨Recorded.registerAll ⟨rfl, ?_⟩ _ id _ _, ⟨?_, ?_⟩⟩
    · intro i hi
      exact absurd hi (Nat.not_lt_zero i)
    · rw [hsame.size]
      exact le_of_le_of_eq (le_max_left _ _) hcap.symm
    · exact lt_of_eq_of_lt hcap (max_lt hbytes (by decide))
  | @step p p' op failed _ hstep ih =>
    obtain ⟨hrecorded, hsized⟩ := ih
    rcases apply_cases hstep with hkept | ⟨emission, fuel, plan, image, resolved, request, env, -, -, hroom, -, rfl⟩
    · refine ⟨?_, ⟨by rw [hkept.size, hkept.capacity]; exact hsized.fits, by rw [hkept.capacity]; exact hsized.word⟩⟩
      rcases hkept.states with ⟨hstates, hinactive⟩ | ⟨selected, hstates, hinactive⟩
      · refine ⟨by rw [hstates, hkept.addressMap]; exact hrecorded.states, ?_⟩
        intro i hi hoff
        rw [hinactive]
        rw [hkept.addressMap] at hi
        rw [AotCodeCachePlacement.isActive, hstates] at hoff
        exact hrecorded.inactive i hi hoff
      · refine ⟨by rw [hstates, hkept.addressMap, deactivate_length]; exact hrecorded.states, ?_⟩
        intro i hi hoff
        rw [hinactive]
        rw [hkept.addressMap] at hi
        rw [AotCodeCachePlacement.isActive, hstates, isActive_deactivate, Bool.and_eq_false_iff] at hoff
        rcases hoff with hoff | hoff
        · exact List.mem_append_left _ (hrecorded.inactive i hi hoff)
        · exact List.mem_append_right _ (by simpa using hoff)
    · have hstart : Recorded { p with
          nextGeneration := p.nextGeneration + 1
          memory := relinkEntries p request.guestEntry image resolved } :=
        ⟨hrecorded.states, hrecorded.inactive⟩
      have hall := hstart.registerAll (fun _ => aotGuestPage request.guestEntry)
        (AotAddressMapEntry.move p.size) (fun entry =>
          { generation := p.nextGeneration
            active := activatesEntry p request.guestEntry entry
            tracksGuestBytes := aotAddressMapTracksGuestBytes entry request.excludedRanges })
        image.addressMap
      have hcap := capacity_registerAll (fun _ => aotGuestPage request.guestEntry)
        (AotAddressMapEntry.move p.size) (fun entry =>
          { generation := p.nextGeneration
            active := activatesEntry p request.guestEntry entry
            tracksGuestBytes := aotAddressMapTracksGuestBytes entry request.excludedRanges })
        image.addressMap { p with
          nextGeneration := p.nextGeneration + 1
          memory := relinkEntries p request.guestEntry image resolved }
      refine ⟨⟨hall.states, hall.inactive⟩, ⟨le_of_le_of_eq ?_ hcap.symm, lt_of_eq_of_lt hcap hsized.word⟩⟩
      have := hsized.fits
      show p.size + image.bytes.length ≤ p.capacity
      omega

/-- The entries of a reachable placement are apart. -/
theorem Reachable.entriesApart {table : Table} (hpush : PushRows table) {p : AotCodeCachePlacement}
    (h : Reachable table p) : EntriesApart p.addressMap := by
  have hlaid := h.laid hpush
  obtain ⟨-, hsized⟩ := h.recorded
  refine ⟨hlaid.sites.entries_apart, ?_⟩
  intro e he
  exact lt_of_le_of_lt ((hlaid.sites.entries_in e he).2.trans hsized.fits) hsized.word

/-! ## The lookups agree -/

/-- In every history the index covers the map; dropping it changes no answer of either lookup; and
a guest address is found at an active entry for it or not at all. -/
theorem lookups_agree {table : Table} (hpush : PushRows table) {p : AotCodeCachePlacement}
    {index : AotCacheAddressIndex} (h : IndexedReachable table p index) :
    index.indexedEntryCount = p.addressMap.length ∧
    (∀ guestAddress,
      findAotCacheAddress p index guestAddress =
        findAotCacheAddress p (invalidateAotCacheAddressIndex index) guestAddress ∧
      ∀ cacheAddress, findAotCacheAddress p index guestAddress = some cacheAddress →
        ∃ i entry, p.addressMap[i]? = some entry ∧ p.isActive i = true ∧
          entry.guestAddress = guestAddress ∧
          cacheAddress = BitVec.ofNat 32 (p.baseAddress + entry.cacheOffset)) ∧
    ∀ cacheAddress,
      findAotGuestEntry p index cacheAddress =
        findAotGuestEntry p (invalidateAotCacheAddressIndex index) cacheAddress ∧
      findAotGuestAddress p index cacheAddress =
        findAotGuestAddress p (invalidateAotCacheAddressIndex index) cacheAddress := by
  obtain ⟨hsound, hcount⟩ := h.soundIndex
  have hrecorded := h.reachable.recorded.1
  have hapart := h.reachable.entriesApart hpush
  refine ⟨hcount, ?_, ?_⟩
  · intro guestAddress
    refine ⟨?_, ?_⟩
    · unfold findAotCacheAddress
      rw [findAotCacheEntry_eq hsound, findAotCacheEntry_eq (soundIndex_invalidate _ index)]
    · intro cacheAddress hfind
      unfold findAotCacheAddress at hfind
      rw [Option.bind_eq_some_iff] at hfind
      obtain ⟨i, hi, hcache⟩ := hfind
      obtain ⟨hactive, entry, hentry, hguest⟩ := findAotCacheEntry_active hsound hrecorded.inactive hi
      rw [hentry, Option.map_some, Option.some.injEq] at hcache
      exact ⟨i, entry, hentry, hactive, hguest, hcache.symm⟩
  · intro cacheAddress
    have hentry : findAotGuestEntry p index cacheAddress =
        findAotGuestEntry p (invalidateAotCacheAddressIndex index) cacheAddress := by
      rw [findAotGuestEntry_eq hapart, findAotGuestEntry_eq hapart]
    refine ⟨hentry, ?_⟩
    rw [findAotGuestAddress, findAotGuestAddress, hentry]

/-- The sample guest: its entry is found through the index and by the scan. -/
theorem lookups_agree_sample :
    let index := initializedIndex samplePlacement.addressMap
    findAotCacheAddress samplePlacement index 0x1FFC = some 0x400000 ∧
      findAotCacheAddress samplePlacement (invalidateAotCacheAddressIndex index) 0x1FFC =
        some 0x400000 := by
  have h := (lookups_agree pushRows_sampleTable (.place ⟨samplePlaces⟩)).2.1 0x1FFC
  have hfound : findAotCacheAddress samplePlacement (initializedIndex samplePlacement.addressMap) 0x1FFC =
      some 0x400000 := by decide +kernel
  exact ⟨hfound, h.1.symm.trans hfound⟩

end Repiu.Engine
