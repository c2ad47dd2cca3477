import Repiu.Engine.GuardChains
import Repiu.KeyedList

/-!
# Page bookkeeping

The page states of a placed cache (`aot_page_coherence.cpp`): every tracked entry
is listed on each page its guest bytes lie on, and on no other, in whatever order
entries are registered and pages retired.  The range query reads only these lists.
-/

namespace Repiu.Engine

open Repiu.Runtime KeyedList

/-! ## Pages of a range -/

theorem toNat_aotGuestPage (address : Word) :
    (aotGuestPage address).toNat = address.toNat / kGuestPageSize * kGuestPageSize := by
  have hmask : aotGuestPage address = address >>> 12 <<< 12 := by
    unfold aotGuestPage
    ext i hi
    interval_cases i <;> simp
  have hlt := address.isLt
  have hshift : address.toNat >>> 12 = address.toNat / 4096 := Nat.shiftRight_eq_div_pow _ 12
  rw [hmask, BitVec.toNat_shiftLeft, BitVec.toNat_ushiftRight, hshift, Nat.shiftLeft_eq]
  exact Nat.mod_eq_of_lt (by omega)

/-- The pages from that of an address to that of the last byte. -/
def spannedPages (address : Word) (last : ℕ) : List Word :=
  let first := (aotGuestPage address).toNat
  (List.range ((last - first) / kGuestPageSize + 1)).map fun k =>
    BitVec.ofNat 32 (first + k * kGuestPageSize)

theorem mem_spannedPages {address : Word} {last : ℕ} (hlast : last < 2 ^ 32)
    (haddress : address.toNat ≤ last) {page : Word} :
    page ∈ spannedPages address last ↔
      ∃ b, address.toNat ≤ b ∧ b ≤ last ∧ page.toNat = b / kGuestPageSize * kGuestPageSize := by
  simp only [spannedPages, toNat_aotGuestPage, List.mem_map, List.mem_range, kGuestPageSize]
  constructor
  · rintro ⟨k, hk, rfl⟩
    have hdiv : (last - address.toNat / 4096 * 4096) / 4096 = last / 4096 - address.toNat / 4096 := by
      omega
    refine ⟨max address.toNat (address.toNat / 4096 * 4096 + k * 4096), le_max_left _ _, ?_, ?_⟩
    · omega
    · rw [BitVec.toNat_ofNat, Nat.mod_eq_of_lt (by omega)]
      rcases max_cases address.toNat (address.toNat / 4096 * 4096 + k * 4096) with h | h <;> omega
  · rintro ⟨b, hb, hblast, hpage⟩
    refine ⟨b / 4096 - address.toNat / 4096, by omega, ?_⟩
    apply BitVec.eq_of_toNat_eq
    rw [BitVec.toNat_ofNat, Nat.mod_eq_of_lt (by omega), hpage]
    omega

/-- The bytes of an entry all have addresses. -/
def InAddressSpace (entry : AotAddressMapEntry) : Prop :=
  entry.guestAddress.toNat + entry.guestLength ≤ 2 ^ 32

instance (entry : AotAddressMapEntry) : Decidable (InAddressSpace entry) :=
  inferInstanceAs (Decidable (_ ≤ _))

theorem mem_entryPages {entry : AotAddressMapEntry} {page : Word} :
    page ∈ entryPages entry ↔ InAddressSpace entry ∧
      ∃ b, entry.guestAddress.toNat ≤ b ∧ b < entry.guestAddress.toNat + entry.guestLength ∧
        page.toNat = b / kGuestPageSize * kGuestPageSize := by
  have hlt := entry.guestAddress.isLt
  unfold entryPages InAddressSpace
  dsimp only
  split_ifs with h
  · simp only [List.not_mem_nil, false_iff]
    rintro ⟨hfits, b, hb, hb', -⟩
    omega
  · have hmem : page ∈ spannedPages entry.guestAddress
        (entry.guestAddress.toNat + entry.guestLength - 1) ↔ _ :=
      mem_spannedPages (by omega) (by omega)
    unfold spannedPages at hmem
    dsimp only at hmem
    rw [hmem]
    constructor
    · rintro ⟨b, hb, hb', hpage⟩
      exact ⟨by omega, b, hb, by omega, hpage⟩
    · rintro ⟨-, b, hb, hb', hpage⟩
      exact ⟨b, hb, by omega, hpage⟩

/-! ## The page list -/

/-- The key the page list is sorted by. -/
def pageKey (state : AotGuestPageState) : ℕ := state.guestPage.toNat

theorem findGuestPageState_eq (pages : List AotGuestPageState) (page : Word) :
    findGuestPageState pages page = find pageKey page.toNat pages := by
  simp only [findGuestPageState, find, pageKey, BitVec.toNat_inj]

theorem updateGuestPageState_eq (page : Word) (f : AotGuestPageState → AotGuestPageState)
    (pages : List AotGuestPageState) :
    updateGuestPageState page f pages = upsert pageKey page.toNat { guestPage := page } f pages := by
  induction pages with
  | nil => rfl
  | cons state pages ih =>
    rw [updateGuestPageState, upsert, ih]
    simp only [pageKey, BitVec.lt_def, BitVec.toNat_inj]

section
variable {page : Word} {f : AotGuestPageState → AotGuestPageState}

theorem sorted_updateGuestPageState (hf : ∀ s, (f s).guestPage = s.guestPage)
    {pages : List AotGuestPageState} (h : Sorted pageKey pages) :
    Sorted pageKey (updateGuestPageState page f pages) := by
  rw [updateGuestPageState_eq]
  apply Sorted.upsert _ _ h
  · rw [pageKey, hf]
  · intro s
    rw [pageKey, hf, pageKey]

theorem findGuestPageState_update (hf : ∀ s, (f s).guestPage = s.guestPage)
    {pages : List AotGuestPageState} (h : Sorted pageKey pages) (q : Word) :
    findGuestPageState (updateGuestPageState page f pages) q =
      if q = page then some (f ((findGuestPageState pages page).getD { guestPage := page }))
      else findGuestPageState pages q := by
  have hkey : ∀ s, pageKey (f s) = pageKey s := by
    intro s
    rw [pageKey, hf, pageKey]
  have hnew : pageKey (f { guestPage := page }) = page.toNat := hkey _
  rw [updateGuestPageState_eq, findGuestPageState_eq]
  by_cases hq : q = page
  · rw [if_pos hq, hq, findGuestPageState_eq]
    exact find_upsert_self hnew hkey h
  · rw [if_neg hq, findGuestPageState_eq]
    apply find_upsert_of_ne hnew hkey
    rwa [Ne, BitVec.toNat_inj]

end

/-- Entry `index` is listed on a page. -/
def Listed (pages : List AotGuestPageState) (page : Word) (index : ℕ) : Prop :=
  ∃ state, findGuestPageState pages page = some state ∧ index ∈ state.mapIndices

theorem not_listed_nil (page : Word) (index : ℕ) : ¬Listed [] page index := by
  rintro ⟨state, hstate, -⟩
  cases hstate

/-- An update that keeps the entries of its page keeps all lists. -/
theorem listed_update {page : Word} {f : AotGuestPageState → AotGuestPageState}
    (hf : ∀ s, (f s).guestPage = s.guestPage) (hmap : ∀ s, (f s).mapIndices = s.mapIndices)
    {pages : List AotGuestPageState} (h : Sorted pageKey pages) (q : Word) (index : ℕ) :
    Listed (updateGuestPageState page f pages) q index ↔ Listed pages q index := by
  unfold Listed
  rw [findGuestPageState_update hf h]
  by_cases hq : q = page
  · rw [if_pos hq, hq]
    cases findGuestPageState pages page with
    | none => simp [hmap]
    | some state => simp [hmap]
  · rw [if_neg hq]

/-- An update that adds an entry to its page. -/
theorem listed_update_add {page : Word} {i : ℕ} {f : AotGuestPageState → AotGuestPageState}
    (hf : ∀ s, (f s).guestPage = s.guestPage) (hmap : ∀ s, (f s).mapIndices = s.mapIndices ++ [i])
    {pages : List AotGuestPageState} (h : Sorted pageKey pages) (q : Word) (index : ℕ) :
    Listed (updateGuestPageState page f pages) q index ↔
      Listed pages q index ∨ (q = page ∧ index = i) := by
  unfold Listed
  rw [findGuestPageState_update hf h]
  by_cases hq : q = page
  · rw [if_pos hq, hq]
    cases findGuestPageState pages page with
    | none => simp [hmap]
    | some state => simp [hmap]
  · rw [if_neg hq]
    simp [hq]

/-- What registration does to the state of one page. -/
def listOnPage (mapIndex : ℕ) (state : AotAddressMapState) (s : AotGuestPageState) : AotGuestPageState :=
  { s with
    mapIndices := s.mapIndices ++ [mapIndex]
    latestGeneration :=
      if state.active then max s.latestGeneration state.generation else s.latestGeneration }

theorem registerAddressMapPages_eq (pages : List AotGuestPageState) (entry : AotAddressMapEntry)
    (mapIndex : ℕ) (state : AotAddressMapState) :
    registerAddressMapPages pages entry mapIndex state =
      (entryPages entry).foldl
        (fun pages page => updateGuestPageState page (listOnPage mapIndex state) pages) pages := rfl

/-- Registering an entry lists it on its pages and changes no other list. -/
theorem registerAddressMapPages_spec (entry : AotAddressMapEntry) (i : ℕ) (state : AotAddressMapState)
    {pages : List AotGuestPageState} (h : Sorted pageKey pages) :
    Sorted pageKey (registerAddressMapPages pages entry i state) ∧
      ∀ q index, Listed (registerAddressMapPages pages entry i state) q index ↔
        Listed pages q index ∨ (q ∈ entryPages entry ∧ index = i) := by
  rw [registerAddressMapPages_eq]
  generalize entryPages entry = l
  induction l generalizing pages with
  | nil =>
    refine ⟨h, ?_⟩
    simp
  | cons page l ih =>
    have hpage : ∀ s, (listOnPage i state s).guestPage = s.guestPage := fun _ => rfl
    have hmap : ∀ s, (listOnPage i state s).mapIndices = s.mapIndices ++ [i] := fun _ => rfl
    obtain ⟨hrest, hlisted⟩ := ih (sorted_updateGuestPageState hpage h)
    refine ⟨hrest, ?_⟩
    intro q index
    rw [List.foldl_cons, hlisted, listed_update_add hpage hmap h]
    simp only [List.mem_cons]
    tauto

/-! ## The calls -/

/-- The state `resize` gives an entry that is not registered yet. -/
def unregisteredState : AotAddressMapState :=
  { generation := 0, active := true, tracksGuestBytes := true }

/-- What the activation of an entry that starts on the requested page does to its state. -/
def revivePage (generation : ℕ) (s : AotGuestPageState) : AotGuestPageState :=
  { s with retired := false, latestGeneration := generation }

/-- The page states behind `RegisterAotAddressMap`. -/
def registeredPages (requestedPage : Word) (entry : AotAddressMapEntry) (mapIndex : ℕ)
    (state : AotAddressMapState) (pages : List AotGuestPageState) : List AotGuestPageState :=
  let registered :=
    if state.tracksGuestBytes then registerAddressMapPages pages entry mapIndex state else pages
  if state.tracksGuestBytes ∧ state.active ∧ aotGuestPage entry.guestAddress = requestedPage then
    updateGuestPageState requestedPage (revivePage state.generation) registered
  else registered

/-- `RegisterAotAddressMap` for an entry of the map. -/
def registerMapIndex (requestedPage : Word) (mapIndex : ℕ) (state : AotAddressMapState)
    (p : AotCodeCachePlacement) : AotCodeCachePlacement :=
  match p.addressMap[mapIndex]? with
  | none => p
  | some entry =>
    let resized := p.addressMapStates ++
      List.replicate (mapIndex + 1 - p.addressMapStates.length) unregisteredState
    { p with
      addressMapStates := resized.set mapIndex state
      guestPages := registeredPages requestedPage entry mapIndex state p.guestPages
      inactiveMapIndices :=
        if state.active then p.inactiveMapIndices else p.inactiveMapIndices ++ [mapIndex] }

/-- Registering a new entry is registering the index it gets at the end of the map. -/
theorem registerAotAddressMap_eq (requestedPage : Word) (p : AotCodeCachePlacement)
    (entry : AotAddressMapEntry) (state : AotAddressMapState)
    (hstates : p.addressMapStates.length = p.addressMap.length) :
    registerAotAddressMap requestedPage p entry state =
      registerMapIndex requestedPage p.addressMap.length state
        { p with addressMap := p.addressMap ++ [entry] } := by
  have hresized : (p.addressMapStates ++ List.replicate
      (p.addressMap.length + 1 - p.addressMapStates.length) unregisteredState).set
      p.addressMap.length state = p.addressMapStates ++ [state] := by
    rw [← hstates, Nat.add_sub_cancel_left, List.replicate_one, List.set_append_right _ _ le_rfl,
      Nat.sub_self, List.set_cons_zero]
  simp only [registerMapIndex, List.getElem?_concat_length, hresized]
  rfl

/-- The calls that change the page bookkeeping.  A new entry is registered as it is appended to
the map; an entry of the map may be registered again. -/
inductive CoherenceCall
  | append (requestedPage : Word) (entry : AotAddressMapEntry) (state : AotAddressMapState)
  | register (requestedPage : Word) (mapIndex : ℕ) (state : AotAddressMapState)
  | retire (guestAddress : Word) (quarantine protectedWritable protectedExecute : Bool)

/-- The placement behind a call. -/
def CoherenceCall.apply (p : AotCodeCachePlacement) : CoherenceCall → AotCodeCachePlacement
  | .append requestedPage entry state => registerAotAddressMap requestedPage p entry state
  | .register requestedPage mapIndex state => registerMapIndex requestedPage mapIndex state p
  | .retire guestAddress quarantine protectedWritable protectedExecute =>
    (retireAotGuestPage guestAddress quarantine protectedWritable protectedExecute p).1

/-- The placement `InitializeAotPageCoherence` starts its registrations from. -/
structure Cleared (p : AotCodeCachePlacement) : Prop where
  addressMap : p.addressMap = []
  addressMapStates : p.addressMapStates = []
  guestPages : p.guestPages = []
  inactiveMapIndices : p.inactiveMapIndices = []

/-- The placements the calls lead to. -/
inductive CoherenceReachable : AotCodeCachePlacement → Prop
  | start {p : AotCodeCachePlacement} (entries : List AotAddressMapEntry) : Cleared p →
      CoherenceReachable (initializeAotPageCoherence p entries)
  | step {p : AotCodeCachePlacement} (call : CoherenceCall) : CoherenceReachable p →
      CoherenceReachable (call.apply p)

/-! ## The invariant -/

/-- The page lists list exactly the tracked entries on each page. -/
structure Listing (p : AotCodeCachePlacement) : Prop where
  sorted : Sorted pageKey p.guestPages
  /-- A tracked entry is listed on every page of its bytes. -/
  listed : ∀ i entry state, p.addressMap[i]? = some entry → p.addressMapStates[i]? = some state →
    state.tracksGuestBytes = true → ∀ page ∈ entryPages entry, Listed p.guestPages page i
  /-- What is listed on a page has a byte on it. -/
  onPage : ∀ page i, Listed p.guestPages page i →
    ∃ entry, p.addressMap[i]? = some entry ∧ page ∈ entryPages entry

/-- The page bookkeeping of a placement all of whose entries are registered. -/
structure Coherent (p : AotCodeCachePlacement) : Prop extends Listing p where
  states : p.addressMapStates.length = p.addressMap.length

theorem registeredPages_spec (requestedPage : Word) (entry : AotAddressMapEntry) (i : ℕ)
    (state : AotAddressMapState) {pages : List AotGuestPageState} (h : Sorted pageKey pages) :
    Sorted pageKey (registeredPages requestedPage entry i state pages) ∧
      ∀ q index, Listed (registeredPages requestedPage entry i state pages) q index ↔
        Listed pages q index ∨
          (state.tracksGuestBytes = true ∧ q ∈ entryPages entry ∧ index = i) := by
  obtain ⟨hsorted, hlisted⟩ := registerAddressMapPages_spec entry i state h
  unfold registeredPages
  by_cases htracks : state.tracksGuestBytes = true
  · simp only [htracks, if_true, true_and]
    split_ifs
    · have hpage : ∀ s, (revivePage state.generation s).guestPage = s.guestPage := fun _ => rfl
      have hmap : ∀ s, (revivePage state.generation s).mapIndices = s.mapIndices := fun _ => rfl
      refine ⟨sorted_updateGuestPageState hpage hsorted, ?_⟩
      intro q index
      rw [listed_update hpage hmap hsorted, hlisted]
    · exact ⟨hsorted, hlisted⟩
  · simp [htracks, h]

theorem Listing.registerMapIndex {p : AotCodeCachePlacement} (h : Listing p) (requestedPage : Word)
    {mapIndex : ℕ} (hindex : mapIndex ≤ p.addressMapStates.length) (state : AotAddressMapState) :
    Listing (registerMapIndex requestedPage mapIndex state p) := by
  unfold Engine.registerMapIndex
  cases hentry : p.addressMap[mapIndex]? with
  | none => exact h
  | some entry =>
    obtain ⟨hsorted, hlisted⟩ := registeredPages_spec requestedPage entry mapIndex state h.sorted
    refine ⟨hsorted, ?_, ?_⟩
    · intro i entry' state' hi hstate htracks page hpage
      rw [hlisted]
      by_cases heq : i = mapIndex
      · -- the registered entry itself: its pages were just listed
        subst heq
        dsimp only at hi hstate
        rw [hentry, Option.some.injEq] at hi
        rw [List.getElem?_set_self (by rw [List.length_append, List.length_replicate]; omega),
          Option.some.injEq] at hstate
        subst hi hstate
        exact Or.inr ⟨htracks, hpage, rfl⟩
      · left
        dsimp only at hstate
        rw [List.getElem?_set_ne (Ne.symm heq)] at hstate
        have hlt : i < p.addressMapStates.length := by
          have hlen := (List.getElem?_eq_some_iff.mp hstate).1
          rw [List.length_append, List.length_replicate] at hlen
          omega
        rw [List.getElem?_append_left hlt] at hstate
        exact h.listed i entry' state' hi hstate htracks page hpage
    · intro page i hi
      rcases (hlisted page i).mp hi with hi | ⟨-, hpage, rfl⟩
      · exact h.onPage page i hi
      · exact ⟨entry, hentry, hpage⟩

theorem Listing.push {p : AotCodeCachePlacement} (h : Listing p)
    (hstates : p.addressMapStates.length ≤ p.addressMap.length) (entry : AotAddressMapEntry) :
    Listing { p with addressMap := p.addressMap ++ [entry] } := by
  refine ⟨h.sorted, ?_, ?_⟩
  · intro i entry' state hi hstate
    have hlt := (List.getElem?_eq_some_iff.mp hstate).1
    dsimp only at hi hlt
    rw [List.getElem?_append_left (by omega)] at hi
    exact h.listed i entry' state hi hstate
  · intro page i hi
    obtain ⟨entry', hentry', hpage⟩ := h.onPage page i hi
    refine ⟨entry', ?_, hpage⟩
    dsimp only
    rw [List.getElem?_append_left (List.getElem?_eq_some_iff.mp hentry').1]
    exact hentry'

theorem Coherent.register {p : AotCodeCachePlacement} (h : Coherent p) (requestedPage : Word)
    (mapIndex : ℕ) (state : AotAddressMapState) :
    Coherent (registerMapIndex requestedPage mapIndex state p) := by
  by_cases hindex : mapIndex < p.addressMap.length
  · have hle : mapIndex ≤ p.addressMapStates.length := by
      rw [h.states]
      exact hindex.le
    refine ⟨h.toListing.registerMapIndex requestedPage hle state, ?_⟩
    have hstates := h.states
    simp only [registerMapIndex, List.getElem?_eq_getElem hindex, List.length_set,
      List.length_append, List.length_replicate]
    omega
  · have hnone : p.addressMap[mapIndex]? = none := List.getElem?_eq_none (not_lt.mp hindex)
    simp only [registerMapIndex, hnone]
    exact h

theorem Coherent.append {p : AotCodeCachePlacement} (h : Coherent p) (requestedPage : Word)
    (entry : AotAddressMapEntry) (state : AotAddressMapState) :
    Coherent (registerAotAddressMap requestedPage p entry state) := by
  refine ⟨?_, ?_⟩
  · rw [registerAotAddressMap_eq requestedPage p entry state h.states]
    apply Listing.registerMapIndex (h.toListing.push h.states.le entry)
    exact h.states.ge
  · simp only [registerAotAddressMap, List.length_append, List.length_singleton, h.states]

/-- Retirement changes no tracking flag. -/
theorem tracksGuestBytes_deactivate (selected : List ℕ) (states : List AotAddressMapState) (i : ℕ) :
    ((deactivate selected states)[i]?).map AotAddressMapState.tracksGuestBytes =
      states[i]?.map AotAddressMapState.tracksGuestBytes := by
  unfold deactivate
  induction selected generalizing states with
  | nil => rfl
  | cons j selected ih =>
    rw [List.foldl_cons, ih, List.getElem?_modify]
    split_ifs <;> cases states[i]? <;> rfl

/-- What a retirement does to the bookkeeping: nothing, or the page is marked and its active
tracked entries are not active any more. -/
theorem retireAotGuestPage_bookkeeping (guestAddress : Word)
    (quarantine protectedWritable protectedExecute : Bool) (p : AotCodeCachePlacement) :
    let result := retireAotGuestPage guestAddress quarantine protectedWritable protectedExecute p
    let p' := result.1
    let page := aotGuestPage guestAddress
    p'.placed = p.placed ∧ p'.addressMap = p.addressMap ∧
      ((result.2.retired = false ∧ p'.addressMapStates = p.addressMapStates ∧
          p'.guestPages = p.guestPages ∧ p'.inactiveMapIndices = p.inactiveMapIndices) ∨
        (result.2.retired = true ∧ p'.addressMapStates = deactivate (selectedEntries p page) p.addressMapStates ∧
          p'.guestPages = markRetired quarantine page p.guestPages ∧
          p'.inactiveMapIndices = p.inactiveMapIndices ++ selectedEntries p page)) := by
  intro result p' page
  by_cases hplaced : ¬p.placed
  · have hresult : result = (p, ⟨page, .unavailable, []⟩) := by
      simp only [result, retireAotGuestPage, if_pos hplaced, page]
    have hp' : p' = p := congrArg Prod.fst hresult
    rw [hp', hresult]
    exact ⟨rfl, rfl, Or.inl ⟨rfl, rfl, rfl, rfl⟩⟩
  cases hstate : findGuestPageState p.guestPages page with
  | none =>
    have hresult : result = (p, ⟨page, .noProvenance, []⟩) := by
      simp only [result, retireAotGuestPage, if_neg hplaced]
      rw [hstate]
    have hp' : p' = p := congrArg Prod.fst hresult
    rw [hp', hresult]
    exact ⟨rfl, rfl, Or.inl ⟨rfl, rfl, rfl, rfl⟩⟩
  | some state =>
    have hselected : selectedEntries p page = state.mapIndices.filter (retiresEntry p page) := by
      simp only [selectedEntries, hstate]
    rw [hselected]
    simp only [p', result, retireAotGuestPage, if_neg hplaced]
    rw [hstate]
    dsimp only
    by_cases hnone : state.mapIndices.filter (retiresEntry p page) = []
    · rw [if_pos hnone, hnone]
      exact ⟨rfl, rfl, Or.inr ⟨rfl, rfl, rfl, (List.append_nil _).symm⟩⟩
    · rw [if_neg hnone]
      cases protectedWritable with
      | false => exact ⟨rfl, rfl, Or.inl ⟨rfl, rfl, rfl, rfl⟩⟩
      | true =>
        cases protectedExecute with
        | false => exact ⟨rfl, rfl, Or.inl ⟨rfl, rfl, rfl, rfl⟩⟩
        | true => exact ⟨rfl, rfl, Or.inr ⟨rfl, rfl, rfl, rfl⟩⟩

/-- What a retirement does to the state of its page. -/
def markPage (quarantine : Bool) (s : AotGuestPageState) : AotGuestPageState :=
  { s with retired := true, quarantined := s.quarantined || quarantine }

theorem markRetired_eq (quarantine : Bool) (page : Word) (pages : List AotGuestPageState) :
    markRetired quarantine page pages = updateGuestPageState page (markPage quarantine) pages := rfl

theorem Coherent.retire {p : AotCodeCachePlacement} (h : Coherent p) (guestAddress : Word)
    (quarantine protectedWritable protectedExecute : Bool) :
    Coherent (retireAotGuestPage guestAddress quarantine protectedWritable protectedExecute p).1 := by
  have hpage : ∀ s, (markPage quarantine s).guestPage = s.guestPage := fun _ => rfl
  have hmap : ∀ s, (markPage quarantine s).mapIndices = s.mapIndices := fun _ => rfl
  obtain ⟨-, haddress, ⟨-, hstates, hpages, -⟩ | ⟨-, hstates, hpages, -⟩⟩ :=
    retireAotGuestPage_bookkeeping guestAddress quarantine protectedWritable protectedExecute p
  · refine ⟨⟨?_, ?_, ?_⟩, ?_⟩
    · rw [hpages]
      exact h.sorted
    · rw [haddress, hstates, hpages]
      exact h.listed
    · rw [haddress, hpages]
      exact h.onPage
    · rw [haddress, hstates]
      exact h.states
  · rw [markRetired_eq] at hpages
    refine ⟨⟨?_, ?_, ?_⟩, ?_⟩
    · rw [hpages]
      exact sorted_updateGuestPageState hpage h.sorted
    · rw [haddress, hstates, hpages]
      intro i entry state hi hstate htracks page hpage'
      rw [listed_update hpage hmap h.sorted]
      have htracks' := tracksGuestBytes_deactivate (selectedEntries p (aotGuestPage guestAddress))
        p.addressMapStates i
      rw [hstate] at htracks'
      cases hold : p.addressMapStates[i]? with
      | none =>
        rw [hold] at htracks'
        cases htracks'
      | some old =>
        rw [hold, Option.map_some, Option.map_some, Option.some.injEq] at htracks'
        exact h.listed i entry old hi hold (htracks'.symm.trans htracks) page hpage'
    · rw [haddress, hpages]
      intro page i hi
      exact h.onPage page i ((listed_update hpage hmap h.sorted page i).mp hi)
    · rw [haddress, hstates, deactivate_length]
      exact h.states

/-- The bookkeeping is exact in every placement the calls lead to. -/
theorem CoherenceReachable.coherent {p : AotCodeCachePlacement} (h : CoherenceReachable p) :
    Coherent p := by
  induction h with
  | @start p entries hcleared =>
    -- the registrations of the initial entries, one at a time
    have hfold : ∀ (l : List AotAddressMapEntry) (q : AotCodeCachePlacement), Coherent q →
        Coherent (l.foldl (fun p entry => registerAotAddressMap (aotGuestPage entry.guestAddress) p
          entry { generation := 1, active := true, tracksGuestBytes := true }) q) := by
      intro l
      induction l with
      | nil => exact fun q hq => hq
      | cons entry l ih => exact fun q hq => ih _ (hq.append _ entry _)
    apply hfold
    refine ⟨⟨?_, ?_, ?_⟩, ?_⟩
    · rw [hcleared.guestPages]
      exact List.Pairwise.nil
    · intro i entry state hi
      rw [hcleared.addressMap] at hi
      cases hi
    · intro page i hi
      rw [hcleared.guestPages] at hi
      exact absurd hi (not_listed_nil page i)
    · rw [hcleared.addressMap, hcleared.addressMapStates]
      rfl
  | step call _ ih =>
    cases call with
    | append requestedPage entry state => exact ih.append requestedPage entry state
    | register requestedPage mapIndex state => exact ih.register requestedPage mapIndex state
    | retire guestAddress quarantine protectedWritable protectedExecute =>
      exact ih.retire guestAddress quarantine protectedWritable protectedExecute

/-! ## The range query -/

/-- Whether a listed entry is an active tracked one that overlaps the range. -/
def activeOverlap (p : AotCodeCachePlacement) (guestAddress byteCount index : ℕ) : Bool :=
  match p.addressMap[index]?, p.addressMapStates[index]? with
  | some entry, some state =>
    state.active && state.tracksGuestBytes &&
      rangesOverlap guestAddress byteCount entry.guestAddress.toNat entry.guestLength
  | _, _ => false

/-- `AotGuestRangeHasActiveTranslation`. -/
def aotGuestRangeHasActiveTranslation (p : AotCodeCachePlacement) (guestAddress byteCount : Word) :
    Bool :=
  if ¬p.placed ∨ byteCount = 0 then false
  else if 2 ^ 32 < guestAddress.toNat + byteCount.toNat then false
  else
    (spannedPages guestAddress (guestAddress.toNat + byteCount.toNat - 1)).any fun page =>
      match findGuestPageState p.guestPages page with
      | none => false
      | some state => state.mapIndices.any (activeOverlap p guestAddress.toNat byteCount.toNat)

/-- The entry of this index is active and tracked. -/
def ActiveTracked (p : AotCodeCachePlacement) (index : ℕ) (entry : AotAddressMapEntry) : Prop :=
  p.addressMap[index]? = some entry ∧
    ∃ state, p.addressMapStates[index]? = some state ∧ state.active = true ∧
      state.tracksGuestBytes = true

/-- The entry of this index is active and tracked, and one of its bytes is in the range. -/
def HasByteIn (p : AotCodeCachePlacement) (guestAddress byteCount : Word) (entry : AotAddressMapEntry)
    (index : ℕ) : Prop :=
  ActiveTracked p index entry ∧
    ∃ b, entry.guestAddress.toNat ≤ b ∧ b < entry.guestAddress.toNat + entry.guestLength ∧
      guestAddress.toNat ≤ b ∧ b < guestAddress.toNat + byteCount.toNat

theorem rangesOverlap_iff {a n e l : ℕ} (hn : 0 < n) (hl : 0 < l) :
    rangesOverlap a n e l = true ↔ ∃ b, e ≤ b ∧ b < e + l ∧ a ≤ b ∧ b < a + n := by
  unfold rangesOverlap
  rw [decide_eq_true_iff]
  constructor
  · intro h
    exact ⟨max a e, le_max_right _ _, by omega, le_max_left _ _, by omega⟩
  · rintro ⟨b, h₁, h₂, h₃, h₄⟩
    omega

theorem mem_any_listed (p : AotCodeCachePlacement) (page : Word) (f : ℕ → Bool) :
    (match findGuestPageState p.guestPages page with
      | none => false
      | some state => state.mapIndices.any f) = true ↔
      ∃ i, Listed p.guestPages page i ∧ f i = true := by
  unfold Listed
  cases findGuestPageState p.guestPages page with
  | none => simp
  | some state => simp

/-- The range query of a placed cache answers yes exactly when the range lies in the address space
and an active tracked entry of the address space has a byte in it. -/
theorem aotGuestRangeHasActiveTranslation_iff {p : AotCodeCachePlacement} (h : CoherenceReachable p)
    (guestAddress byteCount : Word) :
    aotGuestRangeHasActiveTranslation p guestAddress byteCount = true ↔
      p.placed = true ∧ guestAddress.toNat + byteCount.toNat ≤ 2 ^ 32 ∧
        ∃ i entry, InAddressSpace entry ∧ HasByteIn p guestAddress byteCount entry i := by
  have hcoherent := h.coherent
  have hlt := guestAddress.isLt
  unfold aotGuestRangeHasActiveTranslation
  by_cases hplaced : p.placed = true
  swap
  · rw [if_pos (Or.inl hplaced)]
    simp [hplaced]
  by_cases hzero : byteCount = 0
  · -- an empty range has no byte
    rw [if_pos (Or.inr hzero)]
    simp only [Bool.false_eq_true, false_iff]
    rintro ⟨-, -, i, entry, -, -, b, -, -, h₁, h₂⟩
    have hcount : byteCount.toNat = 0 := by
      rw [hzero]
      rfl
    omega
  have hpos : 0 < byteCount.toNat := by
    rcases Nat.eq_zero_or_pos byteCount.toNat with h0 | h0
    · exact absurd (BitVec.eq_of_toNat_eq h0) hzero
    · exact h0
  rw [if_neg (by rintro (hn | hn); exacts [hn hplaced, hzero hn])]
  by_cases hfits : 2 ^ 32 < guestAddress.toNat + byteCount.toNat
  · rw [if_pos hfits]
    simp only [Bool.false_eq_true, false_iff]
    rintro ⟨-, hle, -⟩
    omega
  rw [if_neg hfits, List.any_eq_true]
  constructor
  · rintro ⟨page, -, hpage⟩
    obtain ⟨i, hlisted, hoverlap⟩ := (mem_any_listed p page _).mp hpage
    obtain ⟨entry, hentry, hmem⟩ := hcoherent.onPage page i hlisted
    obtain ⟨hspace, b, hb₁, hb₂, -⟩ := mem_entryPages.mp hmem
    unfold activeOverlap at hoverlap
    rw [hentry] at hoverlap
    cases hstate : p.addressMapStates[i]? with
    | none =>
      rw [hstate] at hoverlap
      cases hoverlap
    | some state =>
      rw [hstate] at hoverlap
      simp only [Bool.and_eq_true] at hoverlap
      have hbyte := (rangesOverlap_iff hpos (by omega)).mp hoverlap.2
      exact ⟨hplaced, by omega, i, entry, hspace, ⟨hentry, state, hstate, hoverlap.1⟩, hbyte⟩
  · rintro ⟨-, -, i, entry, hspace, ⟨hentry, state, hstate, hactive, htracks⟩, b, hb₁, hb₂, hb₃, hb₄⟩
    -- the page of the common byte is visited, and the entry is listed on it
    have hbyte : b < 2 ^ 32 := by omega
    have hpage : (BitVec.ofNat 32 (b / kGuestPageSize * kGuestPageSize)).toNat =
        b / kGuestPageSize * kGuestPageSize := by
      rw [BitVec.toNat_ofNat, Nat.mod_eq_of_lt (lt_of_le_of_lt (Nat.div_mul_le_self _ _) hbyte)]
    refine ⟨BitVec.ofNat 32 (b / kGuestPageSize * kGuestPageSize), ?_, ?_⟩
    · rw [mem_spannedPages (by omega) (by omega)]
      exact ⟨b, hb₃, by omega, hpage⟩
    · rw [mem_any_listed]
      refine ⟨i, ?_, ?_⟩
      · apply hcoherent.listed i entry state hentry hstate htracks
        rw [mem_entryPages]
        exact ⟨hspace, b, hb₁, hb₂, hpage⟩
      · unfold activeOverlap
        rw [hentry, hstate]
        simp only [hactive, htracks, Bool.and_self, Bool.true_and]
        rw [rangesOverlap_iff hpos (by omega)]
        exact ⟨b, hb₁, hb₂, hb₃, hb₄⟩

/-- A placed cache with one registered entry. -/
def oneEntryPlacement (entry : AotAddressMapEntry) : AotCodeCachePlacement :=
  initializeAotPageCoherence { placed := true, memory := fun _ => 0 } [entry]

theorem oneEntryPlacement_reachable (entry : AotAddressMapEntry) :
    CoherenceReachable (oneEntryPlacement entry) :=
  .start [entry] ⟨rfl, rfl, rfl, rfl⟩

/-- An instruction that straddles a page is seen from the second page alone. -/
theorem aotGuestRangeHasActiveTranslation_straddling :
    let p := oneEntryPlacement ⟨0x1FFE, 0, 4, 4⟩
    CoherenceReachable p ∧ aotGuestRangeHasActiveTranslation p 0x2000 1 = true ∧
      ∃ i entry, InAddressSpace entry ∧ HasByteIn p 0x2000 1 entry i := by
  have h := aotGuestRangeHasActiveTranslation_iff (oneEntryPlacement_reachable ⟨0x1FFE, 0, 4, 4⟩) 0x2000 1
  have hyes : aotGuestRangeHasActiveTranslation (oneEntryPlacement ⟨0x1FFE, 0, 4, 4⟩) 0x2000 1 = true := by
    decide +kernel
  exact ⟨oneEntryPlacement_reachable _, hyes, (h.mp hyes).2.2⟩

/-- An instruction whose bytes go past the top of the address space is on no page: the query
misses it, on a range that ends at the top. -/
theorem aotGuestRangeHasActiveTranslation_misses_past_top :
    let entry : AotAddressMapEntry := ⟨0xFFFFFFFE, 0, 4, 4⟩
    let p := oneEntryPlacement entry
    CoherenceReachable p ∧ p.placed = true ∧
      (0xFFFFFFFE : Word).toNat + (2 : Word).toNat = 2 ^ 32 ∧
      HasByteIn p 0xFFFFFFFE 2 entry 0 ∧
      aotGuestRangeHasActiveTranslation p 0xFFFFFFFE 2 = false := by
  refine ⟨oneEntryPlacement_reachable _, rfl, by decide, ⟨⟨rfl, ⟨1, true, true⟩, rfl, rfl, rfl⟩, ?_⟩, ?_⟩
  · exact ⟨0xFFFFFFFE, by decide, by decide, by decide, by decide⟩
  · decide +kernel

end Repiu.Engine
