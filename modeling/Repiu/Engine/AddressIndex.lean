import Repiu.BucketChains
import Repiu.Engine.PageCoherence

/-!
# Address lookup

The two lookups over the address map of a placement and the index that answers
them (`aot_cache_address_index.cpp`, `FindAotCacheAddress` and
`FindAotGuestAddress` of `aot_code_cache.cpp`).  Where the index does not cover
the map, both scan it.
-/

namespace Repiu.Engine

open Repiu.Runtime Repiu.X86 BucketChains

/-! ## The index -/

/-- `AotCacheAddressIndex`; `kInvalidIndex` is `none`. -/
structure AotCacheAddressIndex where
  indexedEntryCount : ℕ := 0
  buckets : List (Option ℕ) := []
  nextInBucket : List (Option ℕ) := []
  cacheOffsetSorted : Bool := true
  maxEmittedLength : ℕ := 0
  deriving DecidableEq, Repr

/-- `kMinimumBucketCount`. -/
def kMinimumBucketCount : ℕ := 64

/-- `HashGuestAddress`. -/
def hashGuestAddress (guestAddress : Word) (bucketCount : ℕ) : ℕ :=
  (guestAddress * 2654435761).toNat &&& (bucketCount - 1)

/-- The loop of `RoundUpToPowerOfTwo`. -/
def doubleUpTo (value : ℕ) : ℕ → ℕ → ℕ
  | 0, result => result
  | fuel + 1, result =>
    if result < value ∧ result < 0x40000000 then doubleUpTo value fuel (result * 2) else result

/-- `RoundUpToPowerOfTwo`: from 64 to the limit it takes 24 doublings. -/
def roundUpToPowerOfTwo (value : ℕ) : ℕ := doubleUpTo value 24 kMinimumBucketCount

/-- The bucket of an entry of the map. -/
def bucketOf (map : List AotAddressMapEntry) (bucketCount i : ℕ) : ℕ :=
  hashGuestAddress ((map[i]?.map AotAddressMapEntry.guestAddress).getD 0) bucketCount

/-- `LinkEntry`. -/
def linkEntry (map : List AotAddressMapEntry) (i : ℕ) (index : AotCacheAddressIndex) :
    AotCacheAddressIndex :=
  let linked := link (bucketOf map index.buckets.length) i index.buckets index.nextInBucket
  { index with buckets := linked.1, nextInBucket := linked.2 }

/-- `ObserveCacheOffsetOrder`. -/
def observeCacheOffsetOrder (map : List AotAddressMapEntry) (i : ℕ) (index : AotCacheAddressIndex) :
    AotCacheAddressIndex :=
  match map[i]? with
  | none => index
  | some entry =>
    let previous := (map[i - 1]?.map AotAddressMapEntry.cacheOffset).getD 0
    { index with
      cacheOffsetSorted := index.cacheOffsetSorted && !(i ≠ 0 && entry.cacheOffset < previous)
      maxEmittedLength := max index.maxEmittedLength entry.emittedLength }

/-- `RebuildAotCacheAddressIndex`. -/
def rebuildAotCacheAddressIndex (map : List AotAddressMapEntry) : AotCacheAddressIndex :=
  { (List.range map.length).foldl
      (fun index i => observeCacheOffsetOrder map i (linkEntry map i index))
      { buckets := List.replicate (roundUpToPowerOfTwo map.length) none
        nextInBucket := List.replicate map.length none } with
    indexedEntryCount := map.length }

/-- `EnsureAotCacheAddressIndex`. -/
def ensureAotCacheAddressIndex (map : List AotAddressMapEntry) (index : AotCacheAddressIndex) :
    AotCacheAddressIndex :=
  if index.indexedEntryCount ≠ map.length then rebuildAotCacheAddressIndex map else index

/-- `InvalidateAotCacheAddressIndex`. -/
def invalidateAotCacheAddressIndex (index : AotCacheAddressIndex) : AotCacheAddressIndex :=
  { index with indexedEntryCount := 0, buckets := [], nextInBucket := [] }

/-- The index before a new entry is linked; the first one after an invalidation sizes the table. -/
def prepareAppend (map : List AotAddressMapEntry) (index : AotCacheAddressIndex) : AotCacheAddressIndex :=
  { index with
    buckets := if index.buckets = [] then List.replicate (roundUpToPowerOfTwo map.length) none
      else index.buckets
    nextInBucket := index.nextInBucket ++ [none] }

/-- `AppendAotCacheAddressIndexEntry`. -/
def appendAotCacheAddressIndexEntry (map : List AotAddressMapEntry) (i : ℕ)
    (index : AotCacheAddressIndex) : AotCacheAddressIndex :=
  if map.length ≤ i then index
  else if i ≠ index.indexedEntryCount ∨ index.nextInBucket.length ≠ index.indexedEntryCount then
    invalidateAotCacheAddressIndex index
  else if index.buckets ≠ [] ∧ index.buckets.length < map.length then rebuildAotCacheAddressIndex map
  else
    { observeCacheOffsetOrder map i (linkEntry map i (prepareAppend map index)) with
      indexedEntryCount := i + 1 }

/-! ## The lookups -/

/-- Whether an entry of the map is one for a guest address. -/
def entryFor (map : List AotAddressMapEntry) (guestAddress : Word) (i : ℕ) : Bool :=
  map[i]?.map AotAddressMapEntry.guestAddress = some guestAddress

/-- `LookupAotCacheAddressIndex`. -/
def lookupAotCacheAddressIndex (p : AotCodeCachePlacement) (index : AotCacheAddressIndex)
    (guestAddress : Word) (newestActive : Bool) : Option ℕ :=
  if index.buckets = [] ∨ index.indexedEntryCount ≠ p.addressMap.length ∨
      index.nextInBucket.length ≠ index.indexedEntryCount then none
  else
    search (entryFor p.addressMap guestAddress) p.isActive newestActive index.nextInBucket
      index.indexedEntryCount (index.indexedEntryCount + 1)
      (index.buckets[hashGuestAddress guestAddress index.buckets.length]?).join none

/-- `InsertRetiredGuestAddress`. -/
def insertRetiredGuestAddress (addresses : List Word) (guestAddress : Word) : List Word :=
  KeyedList.upsert BitVec.toNat guestAddress.toNat guestAddress id addresses

/-- `retired_guest_addresses`: the addresses of the entries recorded as inactive. -/
def retiredGuestAddresses (p : AotCodeCachePlacement) : List Word :=
  (p.inactiveMapIndices.filterMap fun i => p.addressMap[i]?.map AotAddressMapEntry.guestAddress).foldl
    insertRetiredGuestAddress []

/-- `HasAotRetiredGuestAddress`: a binary search. -/
def hasAotRetiredGuestAddress (p : AotCodeCachePlacement) (guestAddress : Word) : Bool :=
  (KeyedList.lowerBound BitVec.toNat guestAddress.toNat (retiredGuestAddresses p)).head? =
    some guestAddress

/-- The oldest entry for a guest address. -/
def oldestEntry (p : AotCodeCachePlacement) (guestAddress : Word) : Option ℕ :=
  (List.range p.addressMap.length).find? (entryFor p.addressMap guestAddress)

/-- The newest active entry for a guest address. -/
def newestActiveEntry (p : AotCodeCachePlacement) (guestAddress : Word) : Option ℕ :=
  (List.range p.addressMap.length).reverse.find? fun i =>
    entryFor p.addressMap guestAddress i && p.isActive i

/-- The entry `FindAotCacheAddress` answers with: through the index, or by the scan. -/
def findAotCacheEntry (p : AotCodeCachePlacement) (index : AotCacheAddressIndex) (guestAddress : Word) :
    Option ℕ :=
  if ¬p.placed then none
  else if index.indexedEntryCount = p.addressMap.length ∧ p.addressMap ≠ [] then
    lookupAotCacheAddressIndex p index guestAddress
      (retiredGuestAddresses p ≠ [] && hasAotRetiredGuestAddress p guestAddress)
  else if retiredGuestAddresses p = [] then oldestEntry p guestAddress
  else if hasAotRetiredGuestAddress p guestAddress then newestActiveEntry p guestAddress
  else oldestEntry p guestAddress

/-- `FindAotCacheAddress`. -/
def findAotCacheAddress (p : AotCodeCachePlacement) (index : AotCacheAddressIndex) (guestAddress : Word) :
    Option Word :=
  (findAotCacheEntry p index guestAddress).bind fun i =>
    p.addressMap[i]?.map fun entry => BitVec.ofNat 32 (p.baseAddress + entry.cacheOffset)

/-- Whether an entry's emitted bytes hold a cache offset. -/
def covers (map : List AotAddressMapEntry) (offset i : ℕ) : Bool :=
  match map[i]? with
  | none => false
  | some entry =>
    entry.cacheOffset ≤ offset ∧ offset < (entry.cacheOffset + entry.emittedLength) % 2 ^ 32

/-- The walk back of `LookupAotGuestAddressIndex`: the lowest match before `position`. -/
def walkBack (map : List AotAddressMapEntry) (maxEmittedLength offset : ℕ) : ℕ → Option ℕ → Option ℕ
  | 0, found => found
  | position + 1, found =>
    let found := if covers map offset position then some position else found
    match map[position]? with
    | none => found
    | some entry =>
      if (entry.cacheOffset + maxEmittedLength) % 2 ^ 32 ≤ offset then found
      else walkBack map maxEmittedLength offset position found

/-- `LookupAotGuestAddressIndex`; `none` where the index is not usable. -/
def lookupAotGuestAddressIndex (p : AotCodeCachePlacement) (index : AotCacheAddressIndex) (offset : ℕ) :
    Option (Option ℕ) :=
  if ¬index.cacheOffsetSorted ∨ index.indexedEntryCount ≠ p.addressMap.length ∨ p.addressMap = [] then none
  else
    let upper := (p.addressMap.takeWhile fun entry => entry.cacheOffset ≤ offset).length
    some (walkBack p.addressMap index.maxEmittedLength offset upper none)

/-- The entry `FindAotGuestAddress` answers with. -/
def findAotGuestEntry (p : AotCodeCachePlacement) (index : AotCacheAddressIndex) (cacheAddress : Word) :
    Option ℕ :=
  if ¬p.placed ∨ cacheAddress.toNat < p.baseAddress then none
  else
    let offset := cacheAddress.toNat - p.baseAddress
    match lookupAotGuestAddressIndex p index offset with
    | some found => found
    | none => (List.range p.addressMap.length).find? (covers p.addressMap offset)

/-- `FindAotGuestAddress`. -/
def findAotGuestAddress (p : AotCodeCachePlacement) (index : AotCacheAddressIndex) (cacheAddress : Word) :
    Option Word :=
  (findAotGuestEntry p index cacheAddress).bind fun i =>
    p.addressMap[i]?.map AotAddressMapEntry.guestAddress

/-! ## What the index knows -/

/-- The index covers the first `count` entries of the map. -/
structure Linked (map : List AotAddressMapEntry) (count : ℕ) (index : AotCacheAddressIndex) : Prop where
  buckets_pos : 0 < index.buckets.length
  next_length : count ≤ index.nextInBucket.length
  chains : Indexes (bucketOf map index.buckets.length) count index.buckets index.nextInBucket

theorem roundUpToPowerOfTwo_pos (value : ℕ) : 0 < roundUpToPowerOfTwo value := by
  have hloop : ∀ fuel result, 0 < result → 0 < doubleUpTo value fuel result := by
    intro fuel
    induction fuel with
    | zero => exact fun result h => h
    | succ fuel ih =>
      intro result h
      rw [doubleUpTo]
      split_ifs
      · exact ih _ (by omega)
      · exact h
  exact hloop 24 kMinimumBucketCount (by decide)

theorem bucketOf_lt (map : List AotAddressMapEntry) {n : ℕ} (hn : 0 < n) (i : ℕ) : bucketOf map n i < n := by
  unfold bucketOf hashGuestAddress
  exact lt_of_le_of_lt Nat.and_le_right (by omega)

@[simp] theorem observeCacheOffsetOrder_buckets (map : List AotAddressMapEntry) (i : ℕ)
    (index : AotCacheAddressIndex) : (observeCacheOffsetOrder map i index).buckets = index.buckets := by
  unfold observeCacheOffsetOrder
  split <;> rfl

@[simp] theorem observeCacheOffsetOrder_nextInBucket (map : List AotAddressMapEntry) (i : ℕ)
    (index : AotCacheAddressIndex) :
    (observeCacheOffsetOrder map i index).nextInBucket = index.nextInBucket := by
  unfold observeCacheOffsetOrder
  split <;> rfl

/-- Linking and observing the next entry. -/
theorem Linked.link {map : List AotAddressMapEntry} {count : ℕ} {index : AotCacheAddressIndex}
    (h : Linked map count index) (hnext : count < index.nextInBucket.length) :
    let index' := observeCacheOffsetOrder map count (linkEntry map count index)
    Linked map (count + 1) index' ∧ index'.nextInBucket.length = index.nextInBucket.length := by
  have hlength : (linkEntry map count index).buckets.length = index.buckets.length := List.length_set
  refine ⟨⟨?_, ?_, ?_⟩, ?_⟩
  · rw [observeCacheOffsetOrder_buckets, hlength]
    exact h.buckets_pos
  · rw [observeCacheOffsetOrder_nextInBucket]
    simpa [linkEntry, BucketChains.link] using hnext
  · rw [observeCacheOffsetOrder_buckets, observeCacheOffsetOrder_nextInBucket, hlength]
    exact h.chains.link (bucketOf_lt map h.buckets_pos count) hnext
  · rw [observeCacheOffsetOrder_nextInBucket]
    simp [linkEntry, BucketChains.link]

/-- What the index is at any time: empty, or linked up to its count. -/
structure SoundIndex (map : List AotAddressMapEntry) (index : AotCacheAddressIndex) : Prop where
  bound : index.indexedEntryCount ≤ map.length
  next : index.nextInBucket.length = index.indexedEntryCount
  linked : (index.buckets = [] ∧ index.indexedEntryCount = 0) ∨
    Linked map index.indexedEntryCount index

/-- A table without a link. -/
theorem linked_start {map : List AotAddressMapEntry} {n : ℕ} {index : AotCacheAddressIndex}
    (h : index.buckets = List.replicate (roundUpToPowerOfTwo n) none) : Linked map 0 index := by
  refine ⟨?_, Nat.zero_le _, ?_⟩
  · rw [h, List.length_replicate]
    exact roundUpToPowerOfTwo_pos n
  · rw [h]
    exact indexes_empty _ _ _

theorem soundIndex_rebuild (map : List AotAddressMapEntry) :
    SoundIndex map (rebuildAotCacheAddressIndex map) := by
  have hloop : ∀ n ≤ map.length,
      let index := (List.range n).foldl
        (fun index i => observeCacheOffsetOrder map i (linkEntry map i index))
        { buckets := List.replicate (roundUpToPowerOfTwo map.length) none
          nextInBucket := List.replicate map.length none }
      Linked map n index ∧ index.nextInBucket.length = map.length := by
    intro n
    induction n with
    | zero =>
      intro _
      exact ⟨linked_start rfl, List.length_replicate⟩
    | succ n ih =>
      intro hn
      obtain ⟨hlinked, hlength⟩ := ih (by omega)
      rw [List.range_succ, List.foldl_append, List.foldl_cons, List.foldl_nil]
      obtain ⟨hlinked', hlength'⟩ := hlinked.link (by omega)
      exact ⟨hlinked', hlength'.trans hlength⟩
  obtain ⟨hlinked, hlength⟩ := hloop map.length le_rfl
  exact ⟨le_rfl, hlength, Or.inr ⟨hlinked.buckets_pos, hlinked.next_length, hlinked.chains⟩⟩

theorem soundIndex_invalidate (map : List AotAddressMapEntry) (index : AotCacheAddressIndex) :
    SoundIndex map (invalidateAotCacheAddressIndex index) :=
  ⟨Nat.zero_le _, rfl, Or.inl ⟨rfl, rfl⟩⟩

theorem SoundIndex.ensure {map : List AotAddressMapEntry} {index : AotCacheAddressIndex}
    (h : SoundIndex map index) :
    SoundIndex map (ensureAotCacheAddressIndex map index) ∧
      (ensureAotCacheAddressIndex map index).indexedEntryCount = map.length := by
  unfold ensureAotCacheAddressIndex
  split_ifs with hne
  · exact ⟨soundIndex_rebuild map, rfl⟩
  · exact ⟨h, not_not.mp hne⟩

theorem SoundIndex.append {map : List AotAddressMapEntry} {index : AotCacheAddressIndex}
    (h : SoundIndex map index) (i : ℕ) :
    SoundIndex map (appendAotCacheAddressIndexEntry map i index) := by
  unfold appendAotCacheAddressIndexEntry
  split_ifs with hbound hshape hgrow
  · exact h
  · exact soundIndex_invalidate map index
  · exact soundIndex_rebuild map
  · rw [not_or, not_not, not_not] at hshape
    obtain ⟨rfl, hnext⟩ := hshape
    have hprepared : (prepareAppend map index).nextInBucket.length = index.indexedEntryCount + 1 := by
      simp [prepareAppend, hnext]
    -- the table before the new entry: fresh after an invalidation, else the one there is
    have hbefore : Linked map index.indexedEntryCount (prepareAppend map index) := by
      rcases h.linked with ⟨hempty, hzero⟩ | hlinked
      · rw [hzero]
        exact linked_start (if_pos hempty)
      · rw [prepareAppend, if_neg (List.ne_nil_of_length_pos hlinked.buckets_pos)]
        refine ⟨hlinked.buckets_pos, ?_, hlinked.chains.append _⟩
        rw [List.length_append]
        exact Nat.le_add_right_of_le hlinked.next_length
    obtain ⟨hlinked, hlength⟩ := hbefore.link (by omega)
    exact ⟨not_le.mp hbound, hlength.trans hprepared,
      Or.inr ⟨hlinked.buckets_pos, hlinked.next_length, hlinked.chains⟩⟩

/-- Entries behind the count do not matter. -/
theorem SoundIndex.push {map : List AotAddressMapEntry} {index : AotCacheAddressIndex}
    (h : SoundIndex map index) (entry : AotAddressMapEntry) : SoundIndex (map ++ [entry]) index := by
  refine ⟨?_, h.next, ?_⟩
  · rw [List.length_append]
    exact Nat.le_add_right_of_le h.bound
  · rcases h.linked with hempty | hlinked
    · exact Or.inl hempty
    · refine Or.inr ⟨hlinked.buckets_pos, hlinked.next_length, hlinked.chains.congr ?_⟩
      intro i hi
      unfold bucketOf
      rw [List.getElem?_append_left (lt_of_lt_of_le hi h.bound)]

/-- The index answers like the scan, whichever rule is asked for. -/
theorem lookupAotCacheAddressIndex_eq {p : AotCodeCachePlacement} {index : AotCacheAddressIndex}
    (h : SoundIndex p.addressMap index) (hcount : index.indexedEntryCount = p.addressMap.length)
    (hne : p.addressMap ≠ []) (guestAddress : Word) (newestActive : Bool) :
    lookupAotCacheAddressIndex p index guestAddress newestActive =
      if newestActive then newestActiveEntry p guestAddress else oldestEntry p guestAddress := by
  have hlinked : Linked p.addressMap index.indexedEntryCount index := by
    rcases h.linked with ⟨-, hzero⟩ | hlinked
    · rw [hzero, eq_comm, List.length_eq_zero_iff] at hcount
      exact absurd hcount hne
    · exact hlinked
  have hbuckets : index.buckets ≠ [] := List.ne_nil_of_length_pos hlinked.buckets_pos
  -- the chain of the bucket the address hashes to
  have hbucket : hashGuestAddress guestAddress index.buckets.length < index.buckets.length :=
    lt_of_le_of_lt Nat.and_le_right (Nat.sub_lt hlinked.buckets_pos Nat.one_pos)
  have hchain := hlinked.chains _ _ (List.getElem?_eq_getElem hbucket)
  have hmem : ∀ i ∈ newestFirst (bucketOf p.addressMap index.buckets.length) index.indexedEntryCount
      (hashGuestAddress guestAddress index.buckets.length), i < index.indexedEntryCount :=
    fun i hi => (mem_newestFirst.mp hi).1
  have hlength := length_newestFirst_le (bucketOf p.addressMap index.buckets.length)
    index.indexedEntryCount (hashGuestAddress guestAddress index.buckets.length)
  have hhash : ∀ i, entryFor p.addressMap guestAddress i = true →
      bucketOf p.addressMap index.buckets.length i =
        hashGuestAddress guestAddress index.buckets.length := by
    intro i hi
    unfold entryFor at hi
    rw [decide_eq_true_iff] at hi
    rw [bucketOf, hi, Option.getD_some]
  unfold lookupAotCacheAddressIndex
  rw [if_neg (by rw [h.next, hcount]; simp [hbuckets]), List.getElem?_eq_getElem hbucket, Option.join_some]
  cases newestActive with
  | true =>
    rw [if_pos rfl, search_newestActive hchain hmem (by omega), find?_newestFirst, hcount]
    · rfl
    · intro i hi
      exact hhash i ((Bool.and_eq_true _ _).mp hi).1
  | false =>
    rw [if_neg Bool.false_ne_true, search_oldest hchain hmem (by omega), find?_reverse_newestFirst hhash,
      hcount, Option.or_none]
    rfl

/-! ## Retired addresses -/

theorem sorted_foldl_insertRetiredGuestAddress (l : List Word) {addresses : List Word}
    (h : KeyedList.Sorted BitVec.toNat addresses) :
    KeyedList.Sorted BitVec.toNat (l.foldl insertRetiredGuestAddress addresses) ∧
      ∀ a, (KeyedList.find BitVec.toNat a.toNat (l.foldl insertRetiredGuestAddress addresses) = some a ↔
        a ∈ l ∨ KeyedList.find BitVec.toNat a.toNat addresses = some a) := by
  induction l generalizing addresses with
  | nil => exact ⟨h, fun a => by simp⟩
  | cons b l ih =>
    have hsorted : KeyedList.Sorted BitVec.toNat (insertRetiredGuestAddress addresses b) :=
      KeyedList.Sorted.upsert rfl (fun _ => rfl) h
    obtain ⟨hrest, hmem⟩ := ih hsorted
    refine ⟨hrest, fun a => ?_⟩
    rw [List.foldl_cons, hmem, List.mem_cons]
    have hone : KeyedList.find BitVec.toNat a.toNat (insertRetiredGuestAddress addresses b) = some a ↔
        a = b ∨ KeyedList.find BitVec.toNat a.toNat addresses = some a := by
      have hid : ∀ w : Word, (id w).toNat = w.toNat := fun _ => rfl
      unfold insertRetiredGuestAddress
      by_cases hab : a = b
      · subst hab
        rw [KeyedList.find_upsert_self (hid a) hid h]
        simp only [id, Option.some.injEq, true_or, iff_true]
        cases hfind : KeyedList.find BitVec.toNat a.toNat addresses with
        | none => rfl
        | some c => exact BitVec.eq_of_toNat_eq ((KeyedList.find_eq_some h).mp hfind).2
      · rw [KeyedList.find_upsert_of_ne (hid b) hid (by rwa [Ne, BitVec.toNat_inj])]
        simp [hab]
    rw [hone]
    tauto

/-- An address is retired when an entry for it was recorded as inactive. -/
theorem hasAotRetiredGuestAddress_iff (p : AotCodeCachePlacement) (guestAddress : Word) :
    hasAotRetiredGuestAddress p guestAddress = true ↔
      ∃ i ∈ p.inactiveMapIndices, entryFor p.addressMap guestAddress i = true := by
  have hspec := sorted_foldl_insertRetiredGuestAddress
    (p.inactiveMapIndices.filterMap fun i => p.addressMap[i]?.map AotAddressMapEntry.guestAddress)
    (List.Pairwise.nil : KeyedList.Sorted BitVec.toNat [])
  have hlower := KeyedList.find_eq_lowerBound hspec.1 (k := guestAddress.toNat)
  have hmem := hspec.2 guestAddress
  rw [hlower] at hmem
  simp only [List.mem_filterMap, KeyedList.find, List.find?_nil, reduceCtorEq, or_false] at hmem
  unfold hasAotRetiredGuestAddress retiredGuestAddresses
  simp only [entryFor, decide_eq_true_eq]
  rw [← hmem]
  cases (KeyedList.lowerBound BitVec.toNat guestAddress.toNat _).head? with
  | none => simp
  | some a =>
    simp only [Option.some.injEq, Option.filter]
    by_cases ha : a = guestAddress
    · simp [ha]
    · simp [ha, BitVec.toNat_inj]

theorem retiredGuestAddresses_eq_nil {p : AotCodeCachePlacement} (h : retiredGuestAddresses p = [])
    (guestAddress : Word) : hasAotRetiredGuestAddress p guestAddress = false := by
  unfold hasAotRetiredGuestAddress
  rw [h]
  rfl

/-- The rule both paths follow. -/
theorem findAotCacheEntry_eq {p : AotCodeCachePlacement} {index : AotCacheAddressIndex}
    (h : SoundIndex p.addressMap index) (guestAddress : Word) :
    findAotCacheEntry p index guestAddress =
      if ¬p.placed then none
      else if hasAotRetiredGuestAddress p guestAddress then newestActiveEntry p guestAddress
      else oldestEntry p guestAddress := by
  unfold findAotCacheEntry
  by_cases hplaced : ¬p.placed
  · rw [if_pos hplaced, if_pos hplaced]
  rw [if_neg hplaced, if_neg hplaced]
  by_cases hindexed : index.indexedEntryCount = p.addressMap.length ∧ p.addressMap ≠ []
  · rw [if_pos hindexed, lookupAotCacheAddressIndex_eq h hindexed.1 hindexed.2]
    by_cases hnil : retiredGuestAddresses p = []
    · simp [hnil, retiredGuestAddresses_eq_nil hnil]
    · simp [hnil]
  · rw [if_neg hindexed]
    by_cases hnil : retiredGuestAddresses p = []
    · rw [if_pos hnil, retiredGuestAddresses_eq_nil hnil]
      simp
    · rw [if_neg hnil]

/-- The inactive entries are recorded. -/
def InactiveRecorded (p : AotCodeCachePlacement) : Prop :=
  ∀ i < p.addressMap.length, p.isActive i = false → i ∈ p.inactiveMapIndices

/-- The entry found is active: an address without a recorded entry has active entries only. -/
theorem findAotCacheEntry_active {p : AotCodeCachePlacement} {index : AotCacheAddressIndex}
    (h : SoundIndex p.addressMap index) (hrecorded : InactiveRecorded p) {guestAddress : Word} {i : ℕ}
    (hfind : findAotCacheEntry p index guestAddress = some i) :
    p.isActive i = true ∧ ∃ entry, p.addressMap[i]? = some entry ∧ entry.guestAddress = guestAddress := by
  have hentry : ∀ i, entryFor p.addressMap guestAddress i = true →
      ∃ entry, p.addressMap[i]? = some entry ∧ entry.guestAddress = guestAddress := by
    intro i hi
    unfold entryFor at hi
    rw [decide_eq_true_iff, Option.map_eq_some_iff] at hi
    exact hi
  rw [findAotCacheEntry_eq h] at hfind
  split_ifs at hfind with hplaced hretired
  · have := List.find?_some hfind
    rw [Bool.and_eq_true] at this
    exact ⟨this.2, hentry i this.1⟩
  · have hmatch := List.find?_some hfind
    refine ⟨?_, hentry i hmatch⟩
    by_contra hinactive
    apply hretired
    rw [hasAotRetiredGuestAddress_iff]
    obtain ⟨entry, hi, -⟩ := hentry i hmatch
    exact ⟨i, hrecorded i (List.getElem?_eq_some_iff.mp hi).1 (by simpa using hinactive), hmatch⟩

/-! ## Cache offsets -/

/-- Entries apart from each other, none of which wraps around. -/
structure EntriesApart (map : List AotAddressMapEntry) : Prop where
  apart : map.Pairwise fun e e' => e.cacheOffset + e.emittedLength ≤ e'.cacheOffset
  noWrap : ∀ e ∈ map, e.cacheOffset + e.emittedLength < 2 ^ 32

theorem EntriesApart.lt {map : List AotAddressMapEntry} (h : EntriesApart map) {i j : ℕ}
    {e e' : AotAddressMapEntry} (hi : map[i]? = some e) (hj : map[j]? = some e') (hij : i < j) :
    e.cacheOffset + e.emittedLength ≤ e'.cacheOffset := by
  obtain ⟨hi', rfl⟩ := List.getElem?_eq_some_iff.mp hi
  obtain ⟨hj', rfl⟩ := List.getElem?_eq_some_iff.mp hj
  exact List.pairwise_iff_getElem.mp h.apart i j hi' hj' hij

theorem covers_iff {map : List AotAddressMapEntry} (h : EntriesApart map) {offset i : ℕ} :
    covers map offset i = true ↔ ∃ entry, map[i]? = some entry ∧ entry.cacheOffset ≤ offset ∧
      offset < entry.cacheOffset + entry.emittedLength := by
  unfold covers
  cases hi : map[i]? with
  | none => simp
  | some entry =>
    have hlt := h.noWrap entry (List.mem_of_getElem? hi)
    simp only [Nat.mod_eq_of_lt hlt]
    simp

theorem walkBack_of_not_covers {map : List AotAddressMapEntry} {maxEmittedLength offset : ℕ} {k : ℕ}
    (h : ∀ i < k, covers map offset i = false) (found : Option ℕ) :
    walkBack map maxEmittedLength offset k found = found := by
  induction k with
  | zero => rfl
  | succ k ih =>
    rw [walkBack, h k (Nat.lt_succ_self k)]
    simp only [Bool.false_eq_true, if_false]
    rw [ih fun i hi => h i (by omega)]
    cases map[k]? with
    | none => rfl
    | some entry => exact ite_self _

/-- The first elements that satisfy a test are taken. -/
theorem lt_length_takeWhile {α : Type} {f : α → Bool} {l : List α} {j : ℕ}
    (h : ∀ i ≤ j, ∃ a, l[i]? = some a ∧ f a = true) : j < (l.takeWhile f).length := by
  induction l generalizing j with
  | nil =>
    obtain ⟨a, ha, -⟩ := h 0 (Nat.zero_le j)
    cases ha
  | cons b l ih =>
    obtain ⟨a, ha, hfa⟩ := h 0 (Nat.zero_le j)
    rw [List.getElem?_cons_zero, Option.some.injEq] at ha
    subst ha
    rw [List.takeWhile_cons, if_pos hfa, List.length_cons]
    cases j with
    | zero => exact Nat.succ_pos _
    | succ j =>
      apply Nat.succ_lt_succ
      apply ih
      intro i hi
      exact h (i + 1) (Nat.succ_le_succ hi)

/-- The walk back from the upper bound finds what the scan finds. -/
theorem walkBack_eq_scan {map : List AotAddressMapEntry} (h : EntriesApart map)
    (maxEmittedLength offset : ℕ) :
    walkBack map maxEmittedLength offset
        (map.takeWhile fun entry => entry.cacheOffset ≤ offset).length none =
      (List.range map.length).find? (covers map offset) := by
  by_cases hsome : ∃ j, covers map offset j = true
  · obtain ⟨j, hj⟩ := hsome
    obtain ⟨entry, hentry, hle, hlt⟩ := (covers_iff h).mp hj
    have hjlen := (List.getElem?_eq_some_iff.mp hentry).1
    have hother : ∀ i < j, covers map offset i = false := by
      intro i hi
      by_contra hc
      obtain ⟨e, he, -, hlt'⟩ := (covers_iff h).mp (Bool.not_eq_false _ |>.mp hc)
      have := h.lt he hentry hi
      omega
    -- the covering entry is the last one that starts at or before the offset
    have hupper : (map.takeWhile fun entry => entry.cacheOffset ≤ offset).length = j + 1 := by
      apply le_antisymm
      · by_contra hgt
        have hnext : j + 1 < (map.takeWhile fun entry => entry.cacheOffset ≤ offset).length := by omega
        have hbound : j + 1 < map.length := lt_of_lt_of_le hnext (List.takeWhile_prefix _).length_le
        have hmem := List.mem_takeWhile_imp (List.getElem_mem hnext)
        rw [(List.takeWhile_prefix _).getElem hnext, decide_eq_true_iff] at hmem
        have := h.lt hentry (List.getElem?_eq_getElem hbound) (Nat.lt_succ_self j)
        omega
      · apply lt_length_takeWhile
        intro i hi
        have hilen : i < map.length := by omega
        refine ⟨map[i], List.getElem?_eq_getElem hilen, ?_⟩
        rw [decide_eq_true_iff]
        rcases Nat.lt_or_ge i j with hij | hij
        · have := h.lt (List.getElem?_eq_getElem hilen) hentry hij
          omega
        · have heq : i = j := by omega
          subst heq
          rw [List.getElem?_eq_getElem hilen, Option.some.injEq] at hentry
          rw [hentry]
          exact hle
    have hscan : (List.range map.length).find? (covers map offset) = some j := by
      rw [List.find?_range_eq_some]
      refine ⟨hj, List.mem_range.mpr hjlen, ?_⟩
      intro i hi
      rw [hother i hi]
      rfl
    rw [hscan, hupper, walkBack, hj, if_pos rfl, hentry]
    simp only
    rw [walkBack_of_not_covers hother, ite_self]
  · have hnone : ∀ i, covers map offset i = false := by
      intro i
      by_contra hc
      exact hsome ⟨i, Bool.not_eq_false _ |>.mp hc⟩
    rw [walkBack_of_not_covers fun i _ => hnone i, eq_comm, List.find?_eq_none]
    intro i _
    rw [hnone i]
    exact Bool.false_ne_true

theorem findAotGuestEntry_eq {p : AotCodeCachePlacement} (h : EntriesApart p.addressMap)
    (index : AotCacheAddressIndex) (cacheAddress : Word) :
    findAotGuestEntry p index cacheAddress =
      if ¬p.placed ∨ cacheAddress.toNat < p.baseAddress then none
      else (List.range p.addressMap.length).find?
        (covers p.addressMap (cacheAddress.toNat - p.baseAddress)) := by
  unfold findAotGuestEntry lookupAotGuestAddressIndex
  split_ifs with hoff hindex
  · rfl
  · rfl
  · simp only
    exact walkBack_eq_scan h _ _

end Repiu.Engine
