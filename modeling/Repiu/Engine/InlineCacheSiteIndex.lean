import Repiu.Engine.LookupTheorems

/-!
# Inline-cache misses

The index from miss offsets to inline-cache sites (`aot_inline_cache_site_index.cpp`)
and its caller `IsAotInlineCacheMiss`.  A trap is reported at the miss byte of a site or
one behind it, so that the lookup follows two chains; a scan takes the first site of
either kind.
-/

namespace Repiu.Engine

open Repiu.Runtime Repiu.X86 BucketChains

/-! ## The index -/

/-- `AotInlineCacheSiteIndex`; `kInvalidIndex` is `none`. -/
structure AotInlineCacheSiteIndex where
  indexedSiteCount : ℕ := 0
  buckets : List (Option ℕ) := []
  nextInBucket : List (Option ℕ) := []
  lookupCount : Word := 0
  fallbackScanCount : Word := 0
  rebuildCount : Word := 0
  deriving DecidableEq, Repr

/-- `AotInlineCacheSiteLookup`. -/
structure AotInlineCacheSiteLookup where
  usable : Bool := false
  found : Bool := false
  siteIndex : ℕ := 0
  deriving DecidableEq, Repr

/-- `HashMissOffset`. -/
def hashMissOffset (missOffset : Word) (bucketCount : ℕ) : ℕ :=
  (missOffset * 2654435761).toNat &&& (bucketCount - 1)

/-- `miss_cache_offset`, in the 32 bits the source gives it. -/
def missOffsetOf (site : AotIndirectInlineCacheSite) : Word := BitVec.ofNat 32 site.missCacheOffset

/-- The number of sites, cut to 32 bits as the source cuts it. -/
def siteCount (sites : List AotIndirectInlineCacheSite) : ℕ := sites.length % 2 ^ 32

/-- The bucket of a site. -/
def siteBucket (sites : List AotIndirectInlineCacheSite) (bucketCount i : ℕ) : ℕ :=
  hashMissOffset ((sites[i]?.map missOffsetOf).getD 0) bucketCount

/-- Whether a site has a miss offset. -/
def siteHas (sites : List AotIndirectInlineCacheSite) (key : Word) (i : ℕ) : Bool :=
  sites[i]?.map missOffsetOf = some key

/-- `RebuildAotInlineCacheSiteIndex`. -/
def rebuildAotInlineCacheSiteIndex (sites : List AotIndirectInlineCacheSite)
    (index : AotInlineCacheSiteIndex) : AotInlineCacheSiteIndex :=
  let linked := (List.range (siteCount sites)).foldl
    (fun t i => link (siteBucket sites (roundUpToPowerOfTwo (siteCount sites))) i t.1 t.2)
    (List.replicate (roundUpToPowerOfTwo (siteCount sites)) none, List.replicate (siteCount sites) none)
  { index with
    indexedSiteCount := siteCount sites, buckets := linked.1, nextInBucket := linked.2,
    rebuildCount := index.rebuildCount + 1 }

/-- `EnsureAotInlineCacheSiteIndex`. -/
def ensureAotInlineCacheSiteIndex (sites : List AotIndirectInlineCacheSite)
    (index : AotInlineCacheSiteIndex) : AotInlineCacheSiteIndex :=
  if index.indexedSiteCount ≠ siteCount sites then rebuildAotInlineCacheSiteIndex sites index else index

/-- `InvalidateAotInlineCacheSiteIndex`. -/
def invalidateAotInlineCacheSiteIndex (index : AotInlineCacheSiteIndex) : AotInlineCacheSiteIndex :=
  { index with indexedSiteCount := 0, buckets := [], nextInBucket := [] }

/-- `CollectLowestMatch`. -/
def collectLowestMatch (sites : List AotIndirectInlineCacheSite) (index : AotInlineCacheSiteIndex)
    (key : Word) (kept : Option ℕ) : Option ℕ :=
  lowestMatch (siteHas sites key) index.nextInBucket index.indexedSiteCount (index.indexedSiteCount + 1)
    (index.buckets[hashMissOffset key index.buckets.length]?).join kept

/-- `LookupAotInlineCacheSiteIndex`. -/
def lookupAotInlineCacheSiteIndex (sites : List AotIndirectInlineCacheSite)
    (index : AotInlineCacheSiteIndex) (missOffset : Word) : AotInlineCacheSiteLookup :=
  if index.buckets = [] ∨ index.indexedSiteCount ≠ siteCount sites ∨
      index.nextInBucket.length ≠ index.indexedSiteCount then {}
  else
    let kept := collectLowestMatch sites index (missOffset - 1)
      (collectLowestMatch sites index missOffset none)
    { usable := true, found := kept.isSome, siteIndex := kept.getD 0 }

/-- Whether a site's miss is reported at an offset. -/
def missesAt (offset : Word) (site : AotIndirectInlineCacheSite) : Bool :=
  offset = missOffsetOf site ∨ offset = missOffsetOf site + 1

/-- The scan of the sites: the first whose miss is reported at an offset. -/
def scanInlineCacheSites (sites : List AotIndirectInlineCacheSite) (offset : Word) : Option ℕ :=
  sites.findIdx? (missesAt offset)

/-- The body of `IsAotInlineCacheMiss`, behind the check of the base address. -/
def isInlineCacheMissAt (sites : List AotIndirectInlineCacheSite) (index : AotInlineCacheSiteIndex)
    (offset : Word) : Bool × AotInlineCacheSiteIndex :=
  let index := ensureAotInlineCacheSiteIndex sites index
  let indexed := lookupAotInlineCacheSiteIndex sites index offset
  let counted := { index with lookupCount := index.lookupCount + 1 }
  if indexed.usable && !indexed.found then (false, counted)
  else if indexed.usable && (sites[indexed.siteIndex]?.any (missesAt offset)) then (true, counted)
  else
    (sites.any (missesAt offset), { index with fallbackScanCount := index.fallbackScanCount + 1 })

/-- `IsAotInlineCacheMiss`. -/
def isAotInlineCacheMiss (p : AotCodeCachePlacement) (index : AotInlineCacheSiteIndex)
    (cacheAddress : Word) : Bool × AotInlineCacheSiteIndex :=
  if cacheAddress.toNat < p.baseAddress then (false, index)
  else
    isInlineCacheMissAt p.sites.indirectInlineCacheSites index
      (BitVec.ofNat 32 (cacheAddress.toNat - p.baseAddress))

/-- The site a lookup returns. -/
def AotInlineCacheSiteLookup.site (l : AotInlineCacheSiteLookup) : Option ℕ :=
  if l.usable && l.found then some l.siteIndex else none

/-! ## Histories -/

/-- What happens to a site list and its index. -/
inductive SiteIndexOp
  /-- `AppendDynamicAotTranslation` registers more sites. -/
  | append (more : List AotIndirectInlineCacheSite)
  /-- A patch advances the cursor of a site. -/
  | patch (i cursor : ℕ)
  | rebuild
  | ensure
  | invalidate
  | query (offset : Word)
  deriving DecidableEq, Repr

/-- A site list with its index. -/
structure IndexedSites where
  sites : List AotIndirectInlineCacheSite
  index : AotInlineCacheSiteIndex := {}
  deriving DecidableEq, Repr

/-- The effect of an operation. -/
def SiteIndexOp.apply (s : IndexedSites) : SiteIndexOp → IndexedSites
  | .append more => { s with sites := s.sites ++ more }
  | .patch i cursor =>
    { s with sites := s.sites.modify i fun site => { site with replaceCursor := cursor } }
  | .rebuild => { s with index := rebuildAotInlineCacheSiteIndex s.sites s.index }
  | .ensure => { s with index := ensureAotInlineCacheSiteIndex s.sites s.index }
  | .invalidate => { s with index := invalidateAotInlineCacheSiteIndex s.index }
  | .query offset => { s with index := (isInlineCacheMissAt s.sites s.index offset).2 }

/-- A history from a placed list of sites, whose index is empty. -/
def siteHistory (placed : List AotIndirectInlineCacheSite) (ops : List SiteIndexOp) : IndexedSites :=
  ops.foldl SiteIndexOp.apply { sites := placed }

/-! ## What the index knows -/

/-- The index covers the first sites, up to its count. -/
structure SoundSites (sites : List AotIndirectInlineCacheSite) (index : AotInlineCacheSiteIndex) :
    Prop where
  bound : index.indexedSiteCount ≤ sites.length
  next : index.nextInBucket.length = index.indexedSiteCount
  linked : (index.buckets = [] ∧ index.indexedSiteCount = 0) ∨
    (0 < index.buckets.length ∧
      Indexes (siteBucket sites index.buckets.length) index.indexedSiteCount index.buckets
        index.nextInBucket)

theorem hashMissOffset_lt (key : Word) {n : ℕ} (hn : 0 < n) : hashMissOffset key n < n :=
  lt_of_le_of_lt Nat.and_le_right (by omega)

theorem siteCount_le (sites : List AotIndirectInlineCacheSite) : siteCount sites ≤ sites.length :=
  Nat.mod_le _ _

theorem siteCount_eq {sites : List AotIndirectInlineCacheSite} (h : sites.length < 2 ^ 32) :
    siteCount sites = sites.length := Nat.mod_eq_of_lt h

/-- A rebuilt index is linked through all the sites it counts. -/
theorem soundSites_rebuild (sites : List AotIndirectInlineCacheSite) (index : AotInlineCacheSiteIndex) :
    SoundSites sites (rebuildAotInlineCacheSiteIndex sites index) ∧
      (rebuildAotInlineCacheSiteIndex sites index).buckets ≠ [] := by
  have hpos := roundUpToPowerOfTwo_pos (siteCount sites)
  generalize hbuckets : roundUpToPowerOfTwo (siteCount sites) = buckets at hpos
  -- after each turn of the loop the sites so far are linked
  have hloop : ∀ n ≤ siteCount sites,
      let t := (List.range n).foldl (fun t i => link (siteBucket sites buckets) i t.1 t.2)
        (List.replicate buckets none, List.replicate (siteCount sites) none)
      t.1.length = buckets ∧ t.2.length = siteCount sites ∧
        Indexes (siteBucket sites buckets) n t.1 t.2 := by
    intro n
    induction n with
    | zero =>
      intro _
      exact ⟨List.length_replicate, List.length_replicate, indexes_empty _ _ _⟩
    | succ n ih =>
      intro hn
      obtain ⟨h₁, h₂, hlinked⟩ := ih (by omega)
      rw [List.range_succ, List.foldl_append, List.foldl_cons, List.foldl_nil]
      refine ⟨List.length_set.trans h₁, List.length_set.trans h₂, ?_⟩
      apply hlinked.link
      · rw [h₁]
        exact hashMissOffset_lt _ hpos
      · rw [h₂]
        omega
  obtain ⟨h₁, h₂, hlinked⟩ := hloop (siteCount sites) le_rfl
  unfold rebuildAotInlineCacheSiteIndex
  rw [hbuckets]
  refine ⟨⟨siteCount_le sites, h₂, Or.inr ⟨?_, ?_⟩⟩, List.ne_nil_of_length_pos ?_⟩
  · rw [h₁]
    exact hpos
  · rw [h₁]
    exact hlinked
  · rw [h₁]
    exact hpos

namespace SoundSites

variable {sites : List AotIndirectInlineCacheSite} {index : AotInlineCacheSiteIndex}

theorem empty (sites : List AotIndirectInlineCacheSite) : SoundSites sites {} :=
  ⟨Nat.zero_le _, rfl, Or.inl ⟨rfl, rfl⟩⟩

theorem ensure (h : SoundSites sites index) :
    SoundSites sites (ensureAotInlineCacheSiteIndex sites index) ∧
      (ensureAotInlineCacheSiteIndex sites index).indexedSiteCount = siteCount sites := by
  unfold ensureAotInlineCacheSiteIndex
  by_cases hstale : index.indexedSiteCount ≠ siteCount sites
  · rw [if_pos hstale]
    exact ⟨(soundSites_rebuild sites index).1, rfl⟩
  · rw [if_neg hstale]
    exact ⟨h, not_not.mp hstale⟩

/-- The counters of lookups do not matter. -/
theorem counters (h : SoundSites sites index) (lookups scans : Word) :
    SoundSites sites { index with lookupCount := lookups, fallbackScanCount := scans } :=
  ⟨h.bound, h.next, h.linked⟩

theorem query (h : SoundSites sites index) (offset : Word) :
    SoundSites sites (isInlineCacheMissAt sites index offset).2 := by
  unfold isInlineCacheMissAt
  dsimp only
  split
  · exact h.ensure.1.counters _ _
  split
  · exact h.ensure.1.counters _ _
  · exact h.ensure.1.counters _ _

/-- Sites behind the count do not matter, and neither does anything but the miss offsets. -/
theorem congr (h : SoundSites sites index) {sites' : List AotIndirectInlineCacheSite}
    (hlength : sites.length ≤ sites'.length)
    (hsame : ∀ i < sites.length, sites'[i]?.map missOffsetOf = sites[i]?.map missOffsetOf) :
    SoundSites sites' index := by
  refine ⟨h.bound.trans hlength, h.next, ?_⟩
  rcases h.linked with hempty | ⟨hpos, hlinked⟩
  · exact Or.inl hempty
  · refine Or.inr ⟨hpos, hlinked.congr ?_⟩
    intro i hi
    unfold siteBucket
    rw [hsame i (lt_of_lt_of_le hi h.bound)]

theorem apply {s : IndexedSites} (h : SoundSites s.sites s.index) (op : SiteIndexOp) :
    SoundSites (op.apply s).sites (op.apply s).index := by
  cases op with
  | append more =>
    apply h.congr
    · show s.sites.length ≤ (s.sites ++ more).length
      rw [List.length_append]
      exact Nat.le_add_right _ _
    · intro i hi
      show (s.sites ++ more)[i]?.map _ = _
      rw [List.getElem?_append_left hi]
  | patch k cursor =>
    apply h.congr
    · show s.sites.length ≤ (s.sites.modify k _).length
      rw [List.length_modify]
    · intro i _
      show (s.sites.modify k _)[i]?.map _ = _
      rw [List.getElem?_modify]
      split
      · cases s.sites[i]? <;> rfl
      · cases s.sites[i]? <;> rfl
  | rebuild => exact (soundSites_rebuild s.sites s.index).1
  | ensure => exact h.ensure.1
  | invalidate => exact ⟨Nat.zero_le _, rfl, Or.inl ⟨rfl, rfl⟩⟩
  | query offset => exact h.query offset

end SoundSites

/-- After any history the index is sound. -/
theorem soundSites_history (placed : List AotIndirectInlineCacheSite) (ops : List SiteIndexOp) :
    SoundSites (siteHistory placed ops).sites (siteHistory placed ops).index := by
  have hrun : ∀ s : IndexedSites, SoundSites s.sites s.index →
      SoundSites (ops.foldl SiteIndexOp.apply s).sites (ops.foldl SiteIndexOp.apply s).index := by
    induction ops with
    | nil => exact fun s h => h
    | cons op ops ih => exact fun s h => ih _ (h.apply op)
  exact hrun _ (SoundSites.empty placed)

/-! ## The lookup -/

section
variable {sites : List AotIndirectInlineCacheSite} {index : AotInlineCacheSiteIndex}

/-- Following the chain of a key keeps the lowest of what was kept and of the sites with the key. -/
theorem SoundSites.collectLowestMatch (h : SoundSites sites index) (hbuckets : index.buckets ≠ [])
    (hcount : index.indexedSiteCount = sites.length) (key : Word) {S : ℕ → Prop} {kept : Option ℕ}
    (hkept : IsLowest S kept) :
    IsLowest (fun i => S i ∨ siteHas sites key i = true) (collectLowestMatch sites index key kept) := by
  obtain ⟨hpos, hlinked⟩ : 0 < index.buckets.length ∧ Indexes (siteBucket sites index.buckets.length)
      index.indexedSiteCount index.buckets index.nextInBucket := by
    rcases h.linked with ⟨hempty, -⟩ | hlinked
    · exact absurd hempty hbuckets
    · exact hlinked
  have hbucket := hashMissOffset_lt key hpos
  have hchain := hlinked _ _ (List.getElem?_eq_getElem hbucket)
  have hlength := length_newestFirst_le (siteBucket sites index.buckets.length) index.indexedSiteCount
    (hashMissOffset key index.buckets.length)
  unfold Engine.collectLowestMatch
  rw [List.getElem?_eq_getElem hbucket, Option.join_some]
  apply (hchain.lowestMatch (fun i hi => (mem_newestFirst.mp hi).1) (by omega) hkept).congr
  -- every site with the key is in the bucket the key hashes to
  intro i
  refine or_congr_right ⟨And.right, fun hi => ⟨mem_newestFirst.mpr ?_, hi⟩⟩
  have hsite := of_decide_eq_true hi
  obtain ⟨site, hget, -⟩ := Option.map_eq_some_iff.mp hsite
  refine ⟨hcount ▸ (List.getElem?_eq_some_iff.mp hget).1, ?_⟩
  rw [siteBucket, hsite, Option.getD_some]

theorem missesAt_iff {offset : Word} {site : AotIndirectInlineCacheSite} :
    missesAt offset site = true ↔ missOffsetOf site = offset ∨ missOffsetOf site = offset - 1 := by
  unfold missesAt
  rw [decide_eq_true_iff, eq_comm, eq_comm (a := offset), ← eq_sub_iff_add_eq]

/-- A usable lookup returns what the scan finds. -/
theorem SoundSites.lookup (h : SoundSites sites index) (hfits : sites.length < 2 ^ 32)
    (offset : Word) (husable : (lookupAotInlineCacheSiteIndex sites index offset).usable = true) :
    (lookupAotInlineCacheSiteIndex sites index offset).site = scanInlineCacheSites sites offset := by
  unfold lookupAotInlineCacheSiteIndex at husable ⊢
  split at husable
  · cases husable
  rename_i hshape
  rw [not_or, not_or, not_not, not_not] at hshape
  obtain ⟨hbuckets, hcount, -⟩ := hshape
  rw [if_neg (by rw [not_or, not_or, not_not, not_not]; exact ⟨hbuckets, hcount, h.next⟩)]
  rw [siteCount_eq hfits] at hcount
  have hnone : IsLowest (fun _ => False) none := fun _ h => h
  have hboth := h.collectLowestMatch hbuckets hcount (offset - 1)
    (h.collectLowestMatch hbuckets hcount offset hnone)
  have hscan : IsLowest (fun i => (False ∨ siteHas sites offset i = true) ∨
      siteHas sites (offset - 1) i = true) (scanInlineCacheSites sites offset) := by
    apply (isLowest_findIdx? (missesAt offset) sites).congr
    intro i
    unfold siteHas
    cases hsite : sites[i]? with
    | none => simp
    | some site => simp [missesAt_iff]
  have hsame := hboth.unique hscan
  rw [hsame]
  unfold AotInlineCacheSiteLookup.site
  cases scanInlineCacheSites sites offset <;> rfl

/-- Behind `EnsureAotInlineCacheSiteIndex` the lookup is usable, unless there was never a site. -/
theorem SoundSites.ensure_usable (h : SoundSites sites index) (offset : Word) :
    (lookupAotInlineCacheSiteIndex sites (ensureAotInlineCacheSiteIndex sites index) offset).usable = true ∨
      siteCount sites = 0 := by
  obtain ⟨hsound, hcount⟩ := h.ensure
  by_cases hempty : (ensureAotInlineCacheSiteIndex sites index).buckets = []
  · right
    rcases hsound.linked with ⟨-, hzero⟩ | ⟨hpos, -⟩
    · rw [← hcount, hzero]
    · rw [hempty] at hpos
      cases hpos
  · left
    unfold lookupAotInlineCacheSiteIndex
    rw [if_neg]
    rw [not_or, not_or, not_not, not_not]
    exact ⟨hempty, hcount, hsound.next⟩

/-- What the lookup returns to `IsAotInlineCacheMiss` is what the scan finds. -/
theorem SoundSites.ensured (h : SoundSites sites index) (hfits : sites.length < 2 ^ 32) (offset : Word) :
    (lookupAotInlineCacheSiteIndex sites (ensureAotInlineCacheSiteIndex sites index) offset).site =
      scanInlineCacheSites sites offset := by
  rcases h.ensure_usable offset with husable | hnone
  · exact h.ensure.1.lookup hfits offset husable
  · -- without a site neither finds one
    rw [siteCount_eq hfits, List.length_eq_zero_iff] at hnone
    subst hnone
    by_cases husable : (lookupAotInlineCacheSiteIndex []
        (ensureAotInlineCacheSiteIndex [] index) offset).usable = true
    · exact h.ensure.1.lookup hfits offset husable
    · unfold AotInlineCacheSiteLookup.site
      rw [Bool.not_eq_true] at husable
      rw [husable]
      rfl

theorem scanInlineCacheSites_isSome (sites : List AotIndirectInlineCacheSite) (offset : Word) :
    (scanInlineCacheSites sites offset).isSome = sites.any (missesAt offset) :=
  List.findIdx?_isSome

/-- `IsAotInlineCacheMiss` answers whether the scan finds a site. -/
theorem SoundSites.isInlineCacheMissAt (h : SoundSites sites index) (hfits : sites.length < 2 ^ 32)
    (offset : Word) :
    (isInlineCacheMissAt sites index offset).1 = (scanInlineCacheSites sites offset).isSome := by
  have hsame := h.ensured hfits offset
  unfold Engine.isInlineCacheMissAt
  dsimp only
  generalize lookupAotInlineCacheSiteIndex sites (ensureAotInlineCacheSiteIndex sites index) offset = l
    at hsame ⊢
  unfold AotInlineCacheSiteLookup.site at hsame
  split
  · rename_i hnone
    rw [Bool.and_eq_true, Bool.not_eq_true'] at hnone
    rw [hnone.1, hnone.2] at hsame
    rw [← hsame]
    rfl
  split
  · rename_i hhit
    rw [Bool.and_eq_true] at hhit
    obtain ⟨site, hsite, hmisses⟩ := (Option.any_eq_true _ _).mp hhit.2
    rw [scanInlineCacheSites_isSome]
    exact (List.any_eq_true.mpr ⟨site, List.mem_of_getElem? hsite, hmisses⟩).symm
  · exact (scanInlineCacheSites_isSome sites offset).symm

end

/-! ## The sites of a placement -/

/-- Sites lie one behind the other in the code, so that 32 bits count them. -/
theorem Laid.sites_length_le {p : AotCodeCachePlacement} (h : Laid p) :
    p.sites.indirectInlineCacheSites.length ≤ p.size := by
  have hapart := h.sites.chains_apart
  have hbelow : ∀ s ∈ p.sites.indirectInlineCacheSites, s.cacheOffset < p.size :=
    fun s hs => (h.sites.chain_lt hs).1
  -- the offsets are different numbers below the size
  have hnodup : (p.sites.indirectInlineCacheSites.map (·.cacheOffset)).Nodup :=
    List.pairwise_map.mpr (hapart.imp fun hlt => hlt.ne)
  have hsubset : p.sites.indirectInlineCacheSites.map (·.cacheOffset) ⊆ List.range p.size := by
    intro n hn
    obtain ⟨s, hs, rfl⟩ := List.mem_map.mp hn
    exact List.mem_range.mpr (hbelow s hs)
  have hcard := (hnodup.subperm hsubset).length_le
  rwa [List.length_map, List.length_range] at hcard

theorem Reachable.sites_length_lt {table : Table} (hpush : PushRows table) {p : AotCodeCachePlacement}
    (h : Reachable table p) : p.sites.indirectInlineCacheSites.length < 2 ^ 32 := by
  have hsized := h.recorded.2
  exact (h.laid hpush).sites_length_le.trans_lt (hsized.fits.trans_lt hsized.word)

/-- The index and the scan name the same site, after any history of appends, patches, rebuilds,
invalidations and lookups: as long as 32 bits count the sites, as they do in every placement. -/
theorem inlineCacheSites_lookup :
    (∀ (placed : List AotIndirectInlineCacheSite) (ops : List SiteIndexOp) (offset : Word),
      let s := siteHistory placed ops
      s.sites.length < 2 ^ 32 →
        (lookupAotInlineCacheSiteIndex s.sites (ensureAotInlineCacheSiteIndex s.sites s.index)
            offset).site = scanInlineCacheSites s.sites offset ∧
          ((lookupAotInlineCacheSiteIndex s.sites s.index offset).usable = true →
            (lookupAotInlineCacheSiteIndex s.sites s.index offset).site =
              scanInlineCacheSites s.sites offset) ∧
          (isInlineCacheMissAt s.sites s.index offset).1 =
            (scanInlineCacheSites s.sites offset).isSome) ∧
    ∀ (table : Table) (p : AotCodeCachePlacement), PushRows table → Reachable table p →
      p.sites.indirectInlineCacheSites.length < 2 ^ 32 := by
  constructor
  · intro placed ops offset s hfits
    have hsound := soundSites_history placed ops
    exact ⟨hsound.ensured hfits offset, hsound.lookup hfits offset,
      hsound.isInlineCacheMissAt hfits offset⟩
  · intro table p hpush h
    exact h.sites_length_lt hpush

end Repiu.Engine
