import Repiu.Engine.LookupTheorems
import Repiu.Engine.RetiredCode

/-!
# Histories of the address index

The address index behind any order of pushed entries, incremental appends, rebuilds and
invalidations: a lookup through it is the scan it replaces, and its chains hold every
indexed entry once.
-/

namespace Repiu.Engine

open Repiu.Runtime Repiu.X86 BucketChains

/-- The maps and indices that operations lead to.  An entry may be pushed without being indexed, and
any number may be appended to the index, in or out of turn. -/
inductive IndexHistory : List AotAddressMapEntry → AotCacheAddressIndex → Prop
  | empty : IndexHistory [] {}
  | push {map : List AotAddressMapEntry} {index : AotCacheAddressIndex} (entry : AotAddressMapEntry) :
      IndexHistory map index → IndexHistory (map ++ [entry]) index
  | append {map : List AotAddressMapEntry} {index : AotCacheAddressIndex} (i : ℕ) :
      IndexHistory map index → IndexHistory map (appendAotCacheAddressIndexEntry map i index)
  | rebuild {map : List AotAddressMapEntry} {index : AotCacheAddressIndex} :
      IndexHistory map index → IndexHistory map (rebuildAotCacheAddressIndex map)
  | ensure {map : List AotAddressMapEntry} {index : AotCacheAddressIndex} :
      IndexHistory map index → IndexHistory map (ensureAotCacheAddressIndex map index)
  | invalidate {map : List AotAddressMapEntry} {index : AotCacheAddressIndex} :
      IndexHistory map index → IndexHistory map (invalidateAotCacheAddressIndex index)

namespace IndexHistory

variable {map : List AotAddressMapEntry} {index : AotCacheAddressIndex}

theorem soundIndex (h : IndexHistory map index) : SoundIndex map index := by
  induction h with
  | empty => exact ⟨le_rfl, rfl, Or.inl ⟨rfl, rfl⟩⟩
  | push entry _ ih => exact ih.push entry
  | append i _ ih => exact ih.append i
  | rebuild _ _ => exact soundIndex_rebuild _
  | ensure _ ih => exact ih.ensure.1
  | invalidate _ _ => exact soundIndex_invalidate _ _

/-! ## The histories of placements -/

theorem pushed (entries : List AotAddressMapEntry) : IndexHistory map index →
    IndexHistory (map ++ entries) (pushIndexEntries map index entries) := by
  induction entries generalizing map index with
  | nil =>
    intro h
    rw [List.append_nil]
    exact h
  | cons entry entries ih =>
    intro h
    have hrest := ih ((h.push entry).append map.length)
    rw [List.append_assoc, List.singleton_append] at hrest
    exact hrest

/-- Any entries, before the first is indexed. -/
theorem unindexed (map : List AotAddressMapEntry) : IndexHistory map {} := by
  induction map using List.reverseRecOn with
  | nil => exact .empty
  | append_singleton map entry ih => exact ih.push entry

theorem initialized (map : List AotAddressMapEntry) : IndexHistory map (initializedIndex map) := by
  apply ensure
  have hloop : ∀ (l : List ℕ) (index : AotCacheAddressIndex), IndexHistory map index →
      IndexHistory map (l.foldl (fun index i => appendAotCacheAddressIndexEntry map i index) index) := by
    intro l
    induction l with
    | nil => exact fun index h => h
    | cons i l ih => exact fun index h => ih _ (h.append i)
  exact hloop _ _ (unindexed map).invalidate

end IndexHistory

/-- What the engine does to the index of a placement is such a history. -/
theorem IndexedReachable.indexHistory {table : Table} {p : AotCodeCachePlacement}
    {index : AotCacheAddressIndex} (h : IndexedReachable table p index) :
    IndexHistory p.addressMap index := by
  induction h with
  | place _ => exact .initialized _
  | @step p p' index op failed _ hstep ih =>
    obtain ⟨added, hadded⟩ := apply_addressMap hstep
    unfold indexAfter
    split_ifs with hlength
    · rw [hadded, List.length_append, Nat.add_eq_left, List.length_eq_zero_iff] at hlength
      rw [hadded, hlength, List.append_nil]
      exact ih
    · rw [hadded, List.drop_left]
      exact (ih.pushed added).ensure

/-! ## Lookups and scans -/

/-- The scan of `FindAotCacheAddress`: the newest active entry of an address that has a retired
generation, and else the oldest entry. -/
def scanGuest (p : AotCodeCachePlacement) (guestAddress : Word) : Option ℕ :=
  if hasAotRetiredGuestAddress p guestAddress then newestActiveEntry p guestAddress
  else oldestEntry p guestAddress

/-- The scan of `FindAotGuestAddress`: the first entry whose bytes hold the offset. -/
def scanCache (p : AotCodeCachePlacement) (offset : ℕ) : Option ℕ :=
  (List.range p.addressMap.length).find? (covers p.addressMap offset)

/-- The chain of a bucket: every indexed entry of the bucket once, the newest first. -/
theorem SoundIndex.chain {map : List AotAddressMapEntry} {index : AotCacheAddressIndex}
    (h : SoundIndex map index) {b : ℕ} {head : Option ℕ} (hb : index.buckets[b]? = some head) :
    ∃ l, Chain index.nextInBucket head l ∧ l.Pairwise (fun i j => j < i) ∧
      ∀ i, i ∈ l ↔ i < index.indexedEntryCount ∧ bucketOf map index.buckets.length i = b := by
  rcases h.linked with ⟨hempty, -⟩ | hlinked
  · rw [hempty] at hb
    cases hb
  · refine ⟨_, hlinked.chains b head hb, pairwise_newestFirst _ _ _, fun i => ?_⟩
    exact mem_newestFirst

/-- In any history the lookups that the index answers are the scans, whatever entries are active;
and its chains are newest first, with every indexed entry in the chain of its bucket once. -/
theorem addressIndex_scans {table : Table} (hpush : PushRows table) {p : AotCodeCachePlacement}
    {index : AotCacheAddressIndex} (h : Reachable table p) (hindex : IndexHistory p.addressMap index) :
    (∀ guestAddress, findAotCacheEntry p index guestAddress =
      if ¬p.placed then none else scanGuest p guestAddress) ∧
    (index.indexedEntryCount = p.addressMap.length → p.addressMap ≠ [] → ∀ guestAddress,
      lookupAotCacheAddressIndex p index guestAddress true = newestActiveEntry p guestAddress ∧
      lookupAotCacheAddressIndex p index guestAddress false = oldestEntry p guestAddress) ∧
    (∀ offset found, lookupAotGuestAddressIndex p index offset = some found →
      found = scanCache p offset) ∧
    ∀ b head, index.buckets[b]? = some head → ∃ l, Chain index.nextInBucket head l ∧
      l.Pairwise (fun i j => j < i) ∧
      ∀ i, i ∈ l ↔ i < index.indexedEntryCount ∧ bucketOf p.addressMap index.buckets.length i = b := by
  have hsound := hindex.soundIndex
  refine ⟨?_, ?_, ?_, fun b head hb => hsound.chain hb⟩
  · intro guestAddress
    exact findAotCacheEntry_eq hsound guestAddress
  · intro hcount hne guestAddress
    exact ⟨lookupAotCacheAddressIndex_eq hsound hcount hne guestAddress true,
      lookupAotCacheAddressIndex_eq hsound hcount hne guestAddress false⟩
  · intro offset found hfound
    unfold lookupAotGuestAddressIndex at hfound
    split at hfound
    · cases hfound
    · rw [← Option.some.inj hfound]
      exact walkBack_eq_scan (h.entriesApart hpush) _ _

/-- The sample guest with an index built entry by entry. -/
theorem addressIndex_scans_sample :
    findAotCacheEntry samplePlacement (initializedIndex samplePlacement.addressMap) 0x1FFC = some 0 := by
  have hscan := (addressIndex_scans pushRows_sampleTable reachable_samplePlacement
    (.initialized samplePlacement.addressMap)).1 0x1FFC
  have hentry : (if ¬samplePlacement.placed then none else scanGuest samplePlacement 0x1FFC) = some 0 := by
    decide +kernel
  exact hscan.trans hentry

/-- An address whose page was retired is not found at its oldest entry, by the scan no more than
through the index: no entry for it is active. -/
theorem retired_address_not_found :
    let index := initializedIndex samplePageRetired.addressMap
    Reachable sampleTable samplePageRetired ∧ IndexHistory samplePageRetired.addressMap index ∧
      newestActiveEntry samplePageRetired 0x1FFC = none ∧ oldestEntry samplePageRetired 0x1FFC = some 0 ∧
      findAotCacheEntry samplePageRetired index 0x1FFC = none ∧
      findAotCacheEntry samplePageRetired (invalidateAotCacheAddressIndex index) 0x1FFC = none := by
  have hrun : SafeRun sampleTable (fun _ _ => True) samplePageRetired := safeRun_samplePageRetired trivial
  refine ⟨hrun.reachable, .initialized _, ?_, ?_, ?_, ?_⟩
  all_goals decide +kernel

end Repiu.Engine
