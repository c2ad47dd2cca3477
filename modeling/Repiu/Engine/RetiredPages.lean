import Repiu.Engine.PageCoherence

/-!
# Retired and quarantined pages

The flags of a page against the entries on it, over the registrations the engine
makes: the initial entries, the entries of an append with the activity
`AppendDynamicAotTranslation` decides for them, and retirements.  An append may
activate an entry over a retired page it does not start on, because its image was
built from the current bytes of that page; what it never does is activate an entry
that starts on a page left retired, or one that touches a quarantined page.
-/

namespace Repiu.Engine

open Repiu.Runtime KeyedList

/-! ## Page flags -/

/-- The state of a page; a page without one has the default state. -/
def pageState (pages : List AotGuestPageState) (page : Word) : AotGuestPageState :=
  (findGuestPageState pages page).getD { guestPage := page }

/-- `IsAotGuestPageRetired`. -/
def isAotGuestPageRetired (p : AotCodeCachePlacement) (guestAddress : Word) : Bool :=
  (pageState p.guestPages (aotGuestPage guestAddress)).retired

/-- `IsAotGuestPageQuarantined`. -/
def isAotGuestPageQuarantined (p : AotCodeCachePlacement) (guestAddress : Word) : Bool :=
  (pageState p.guestPages (aotGuestPage guestAddress)).quarantined

theorem pageState_update {page : Word} {f : AotGuestPageState → AotGuestPageState}
    (hf : ∀ s, (f s).guestPage = s.guestPage) {pages : List AotGuestPageState}
    (h : Sorted pageKey pages) (q : Word) :
    pageState (updateGuestPageState page f pages) q =
      if q = page then f (pageState pages page) else pageState pages q := by
  unfold pageState
  rw [findGuestPageState_update hf h]
  split_ifs <;> rfl

/-- Listing an entry changes no flag. -/
theorem flags_registerAddressMapPages (entry : AotAddressMapEntry) (i : ℕ) (state : AotAddressMapState)
    {pages : List AotGuestPageState} (h : Sorted pageKey pages) (q : Word) :
    (pageState (registerAddressMapPages pages entry i state) q).retired = (pageState pages q).retired ∧
      (pageState (registerAddressMapPages pages entry i state) q).quarantined =
        (pageState pages q).quarantined := by
  rw [registerAddressMapPages_eq]
  generalize entryPages entry = l
  induction l generalizing pages with
  | nil => exact ⟨rfl, rfl⟩
  | cons page l ih =>
    have hpage : ∀ s, (listOnPage i state s).guestPage = s.guestPage := fun _ => rfl
    obtain ⟨hretired, hquarantined⟩ := ih (sorted_updateGuestPageState hpage h)
    rw [List.foldl_cons, hretired, hquarantined, pageState_update hpage h]
    by_cases hq : q = page
    · rw [if_pos hq, hq]
      exact ⟨rfl, rfl⟩
    · rw [if_neg hq]
      exact ⟨rfl, rfl⟩

/-- A registration clears the retired flag of the requested page, where an active tracked entry
starts on it, and changes no other flag. -/
theorem flags_registeredPages (requestedPage : Word) (entry : AotAddressMapEntry) (i : ℕ)
    (state : AotAddressMapState) {pages : List AotGuestPageState} (h : Sorted pageKey pages) (q : Word) :
    (pageState (registeredPages requestedPage entry i state pages) q).quarantined =
        (pageState pages q).quarantined ∧
      (pageState (registeredPages requestedPage entry i state pages) q).retired =
        ((pageState pages q).retired && !(state.tracksGuestBytes && state.active &&
          aotGuestPage entry.guestAddress = requestedPage && q = requestedPage)) := by
  have hflags := flags_registerAddressMapPages entry i state h
  have hsorted := (registerAddressMapPages_spec entry i state h).1
  have hpage : ∀ s, (revivePage state.generation s).guestPage = s.guestPage := fun _ => rfl
  unfold registeredPages
  by_cases htracks : state.tracksGuestBytes = true
  · simp only [htracks, if_true, true_and, Bool.true_and]
    by_cases hrevive : state.active = true ∧ aotGuestPage entry.guestAddress = requestedPage
    · rw [if_pos hrevive, pageState_update hpage hsorted]
      by_cases hq : q = requestedPage
      · rw [if_pos hq, hq]
        exact ⟨(hflags requestedPage).2, by simp [revivePage, hrevive]⟩
      · rw [if_neg hq, (hflags q).1, (hflags q).2]
        simp [hq]
    · rw [if_neg hrevive, (hflags q).1, (hflags q).2]
      refine ⟨rfl, ?_⟩
      cases hactive : state.active with
      | false => simp
      | true =>
        have hne : aotGuestPage entry.guestAddress ≠ requestedPage := fun he => hrevive ⟨hactive, he⟩
        simp [hne]
  · simp [htracks]

/-! ## Registrations of the engine -/

/-- The calls of the engine on the bookkeeping: the registrations of an append, with the activity
decided before the first of them, and retirements. -/
inductive EngineCall
  | append (request : AppendRequest) (generation : ℕ) (image : AotCodeCacheImage)
  | retire (guestAddress : Word) (quarantine protectedWritable protectedExecute : Bool)

/-- The placement behind a call. -/
def EngineCall.apply (p : AotCodeCachePlacement) : EngineCall → AotCodeCachePlacement
  | .append request generation image => registerImage p p request generation image
  | .retire guestAddress quarantine protectedWritable protectedExecute =>
    (retireAotGuestPage guestAddress quarantine protectedWritable protectedExecute p).1

/-- The placements these calls lead to. -/
inductive EngineReachable : AotCodeCachePlacement → Prop
  | start {p : AotCodeCachePlacement} (entries : List AotAddressMapEntry) : Cleared p →
      EngineReachable (initializeAotPageCoherence p entries)
  | step {p : AotCodeCachePlacement} (call : EngineCall) : EngineReachable p →
      EngineReachable (call.apply p)

/-- The flags of the pages against the entries on them. -/
structure FlagsConsistent (p : AotCodeCachePlacement) : Prop where
  /-- No active tracked entry starts on a retired page. -/
  starts : ∀ i entry, ActiveTracked p i entry → entryPages entry ≠ [] →
    isAotGuestPageRetired p entry.guestAddress = false
  /-- No active tracked entry has a byte on a quarantined page. -/
  clear : ∀ i entry, ActiveTracked p i entry → ∀ page ∈ entryPages entry,
    (pageState p.guestPages page).quarantined = false

theorem start_mem_entryPages {entry : AotAddressMapEntry} (h : entryPages entry ≠ []) :
    aotGuestPage entry.guestAddress ∈ entryPages entry := by
  obtain ⟨page, hpage⟩ := List.exists_mem_of_ne_nil _ h
  obtain ⟨hspace, b, hb₁, hb₂, -⟩ := mem_entryPages.mp hpage
  rw [mem_entryPages]
  exact ⟨hspace, entry.guestAddress.toNat, le_rfl, by omega, toNat_aotGuestPage _⟩

theorem activeTracked_register {requestedPage : Word} {q : AotCodeCachePlacement}
    {entry : AotAddressMapEntry} {state : AotAddressMapState} (hc : Coherent q) {i : ℕ}
    {e : AotAddressMapEntry} (h : ActiveTracked (registerAotAddressMap requestedPage q entry state) i e) :
    ActiveTracked q i e ∨ (e = entry ∧ state.active = true ∧ state.tracksGuestBytes = true) := by
  obtain ⟨he, s, hs, hactive, htracks⟩ := h
  simp only [registerAotAddressMap] at he hs
  by_cases hi : i < q.addressMap.length
  · left
    rw [List.getElem?_append_left hi] at he
    rw [List.getElem?_append_left (by rw [hc.states]; exact hi)] at hs
    exact ⟨he, s, hs, hactive, htracks⟩
  · right
    rw [List.getElem?_append_right (not_lt.mp hi), List.getElem?_singleton] at he
    rw [List.getElem?_append_right (by rw [hc.states]; exact not_lt.mp hi),
      List.getElem?_singleton] at hs
    split_ifs at he hs
    rw [Option.some.injEq] at he hs
    subst hs
    exact ⟨he.symm, hactive, htracks⟩

/-- One registration, of an entry that may be activated. -/
theorem FlagsConsistent.register {requestedPage : Word} {q : AotCodeCachePlacement}
    (h : FlagsConsistent q) (hc : Coherent q) {entry : AotAddressMapEntry} {state : AotAddressMapState}
    (hnew : state.active = true → entryPages entry ≠ [] →
      (aotGuestPage entry.guestAddress = requestedPage ∨
          isAotGuestPageRetired q entry.guestAddress = false) ∧
        ∀ page ∈ entryPages entry, (pageState q.guestPages page).quarantined = false) :
    FlagsConsistent (registerAotAddressMap requestedPage q entry state) := by
  have hflags := flags_registeredPages requestedPage entry q.addressMap.length state hc.sorted
  have hpages : (registerAotAddressMap requestedPage q entry state).guestPages =
      registeredPages requestedPage entry q.addressMap.length state q.guestPages := rfl
  refine ⟨?_, ?_⟩
  · intro i e he hne
    rw [isAotGuestPageRetired, hpages, (hflags _).2]
    rcases activeTracked_register hc he with hold | ⟨rfl, hactive, htracks⟩
    · have := h.starts i e hold hne
      rw [isAotGuestPageRetired] at this
      rw [this, Bool.false_and]
    · rcases (hnew hactive hne).1 with hstart | hclear
      · -- the registration itself clears the flag of the requested page
        simp [hactive, htracks, hstart]
      · rw [isAotGuestPageRetired] at hclear
        rw [hclear, Bool.false_and]
  · intro i e he page hpage
    rw [hpages, (hflags _).1]
    rcases activeTracked_register hc he with hold | ⟨rfl, hactive, -⟩
    · exact h.clear i e hold page hpage
    · exact (hnew hactive (List.ne_nil_of_mem hpage)).2 page hpage

/-- What the decision of an append says about the flags. -/
theorem activatesEntry_flags {p : AotCodeCachePlacement} {guestEntry : Word} {entry : AotAddressMapEntry}
    (h : activatesEntry p guestEntry entry = true) (hne : entryPages entry ≠ []) :
    (aotGuestPage entry.guestAddress = aotGuestPage guestEntry ∨
        isAotGuestPageRetired p entry.guestAddress = false) ∧
      ∀ page ∈ entryPages entry, (pageState p.guestPages page).quarantined = false := by
  have hstart := start_mem_entryPages hne
  unfold activatesEntry at h
  rw [Bool.or_eq_true] at h
  rcases h with hcan | hrequested
  · unfold canActivateAotAddressMapEntry at hcan
    rw [decide_eq_true_iff] at hcan
    have hall := List.all_eq_true.mp hcan.2
    refine ⟨?_, ?_⟩
    · have hpage := hall _ hstart
      unfold isAotGuestPageRetired pageState
      cases hfind : findGuestPageState p.guestPages (aotGuestPage entry.guestAddress) with
      | none => exact Or.inr rfl
      | some s =>
        rw [hfind] at hpage
        by_cases heq : aotGuestPage entry.guestAddress = aotGuestPage guestEntry
        · exact Or.inl heq
        · right
          simpa [heq] using (Bool.or_eq_false_iff.mp (Bool.not_eq_true' _ |>.mp hpage)).2
    · intro page hpage
      have := hall page hpage
      unfold pageState
      cases hfind : findGuestPageState p.guestPages page with
      | none => rfl
      | some s =>
        rw [hfind] at this
        exact (Bool.or_eq_false_iff.mp (Bool.not_eq_true' _ |>.mp this)).1
  · -- the requested entry starts on the requested page
    simp only [Bool.and_eq_true, decide_eq_true_eq, Bool.not_eq_true'] at hrequested
    obtain ⟨heq, hspans⟩ := hrequested
    refine ⟨Or.inl (by rw [heq]), ?_⟩
    intro page hpage
    unfold entrySpansQuarantinedPage at hspans
    rw [decide_eq_false_iff_not, not_or, List.any_eq_true] at hspans
    unfold pageState
    cases hfind : findGuestPageState p.guestPages page with
    | none => rfl
    | some s =>
      by_contra hq
      refine hspans.2 ⟨page, hpage, ?_⟩
      rw [hfind]
      exact Bool.not_eq_false _ |>.mp hq

/-! ## Runs -/

/-- What a run keeps. -/
structure RunInvariant (p : AotCodeCachePlacement) : Prop where
  coherent : Coherent p
  flags : FlagsConsistent p

/-- The flags of `q` against those of `p`: nothing is retired or quarantined that was not, and no
quarantine is lifted. -/
structure FlagsRelaxed (p q : AotCodeCachePlacement) : Prop where
  quarantined : ∀ page, (pageState q.guestPages page).quarantined = (pageState p.guestPages page).quarantined
  retired : ∀ page, (pageState p.guestPages page).retired = false →
    (pageState q.guestPages page).retired = false

theorem FlagsRelaxed.register {p q : AotCodeCachePlacement} (h : FlagsRelaxed p q) (hc : Coherent q)
    (requestedPage : Word) (entry : AotAddressMapEntry) (state : AotAddressMapState) :
    FlagsRelaxed p (registerAotAddressMap requestedPage q entry state) := by
  have hflags := flags_registeredPages requestedPage entry q.addressMap.length state hc.sorted
  have hpages : (registerAotAddressMap requestedPage q entry state).guestPages =
      registeredPages requestedPage entry q.addressMap.length state q.guestPages := rfl
  refine ⟨?_, ?_⟩
  · intro page
    rw [hpages, (hflags page).1, h.quarantined]
  · intro page hretired
    rw [hpages, (hflags page).2, h.retired page hretired, Bool.false_and]

/-- The registrations of an append. -/
theorem registerImage_invariant {p : AotCodeCachePlacement} (h : RunInvariant p) (request : AppendRequest)
    (generation : ℕ) (image : AotCodeCacheImage) :
    RunInvariant (registerImage p p request generation image) ∧
      FlagsRelaxed p (registerImage p p request generation image) := by
  unfold registerImage
  generalize image.addressMap = entries
  -- the activity is decided on `p`, so the invariant of the loop compares with its flags
  have hloop : ∀ q, RunInvariant q → FlagsRelaxed p q →
      let r := entries.foldl (fun r entry => registerAotAddressMap (aotGuestPage request.guestEntry) r
        { entry with cacheOffset := p.size + entry.cacheOffset }
        { generation := generation
          active := activatesEntry p request.guestEntry entry
          tracksGuestBytes := aotAddressMapTracksGuestBytes entry request.excludedRanges }) q
      RunInvariant r ∧ FlagsRelaxed p r := by
    induction entries with
    | nil => exact fun q hq hrelaxed => ⟨hq, hrelaxed⟩
    | cons entry entries ih =>
      intro q hq hrelaxed
      refine ih _ ⟨hq.coherent.append _ _ _, ?_⟩ (hrelaxed.register hq.coherent _ _ _)
      apply hq.flags.register hq.coherent
      intro hactive hne
      obtain ⟨hstart, hclear⟩ := activatesEntry_flags (p := p) hactive hne
      refine ⟨?_, ?_⟩
      · rcases hstart with hstart | hstart
        · exact Or.inl hstart
        · exact Or.inr (hrelaxed.retired _ hstart)
      · intro page hpage
        rw [hrelaxed.quarantined]
        exact hclear page hpage
  exact hloop p h ⟨fun _ => rfl, fun _ h => h⟩

theorem rangesOverlap_page {entry : AotAddressMapEntry} {page : Word} (h : page ∈ entryPages entry) :
    rangesOverlap page.toNat kGuestPageSize entry.guestAddress.toNat entry.guestLength = true := by
  obtain ⟨-, b, hb₁, hb₂, hpage⟩ := mem_entryPages.mp h
  unfold rangesOverlap
  rw [decide_eq_true_iff]
  simp only [kGuestPageSize] at hpage ⊢
  omega

/-- An active tracked entry behind a retirement was one before it and is not on the page. -/
theorem activeTracked_retire {p : AotCodeCachePlacement} (hc : Coherent p) {guestAddress : Word}
    {states : List AotAddressMapState}
    (hstates : states = deactivate (selectedEntries p (aotGuestPage guestAddress)) p.addressMapStates)
    {i : ℕ} {entry : AotAddressMapEntry} (hentry : p.addressMap[i]? = some entry)
    {state : AotAddressMapState} (hstate : states[i]? = some state) (hactive : state.active = true)
    (htracks : state.tracksGuestBytes = true) :
    ActiveTracked p i entry ∧ aotGuestPage guestAddress ∉ entryPages entry := by
  subst hstates
  have hact := isActive_deactivate (selectedEntries p (aotGuestPage guestAddress)) p.addressMapStates i
  have htrk := tracksGuestBytes_deactivate (selectedEntries p (aotGuestPage guestAddress))
    p.addressMapStates i
  rw [hstate] at hact htrk
  cases hold : p.addressMapStates[i]? with
  | none =>
    rw [hold] at htrk
    cases htrk
  | some old =>
    rw [hold] at hact htrk
    simp only [Option.map_some, Option.getD_some, hactive, Option.some.injEq, htracks] at hact htrk
    have hold' := (Bool.and_eq_true _ _).mp hact.symm
    have htracked : ActiveTracked p i entry := ⟨hentry, old, hold, hold'.1, htrk.symm⟩
    refine ⟨htracked, ?_⟩
    -- on the page it would have been listed there, hence selected
    intro hpage
    obtain ⟨s, hs, hmem⟩ := hc.listed i entry old hentry hold htrk.symm _ hpage
    have hselected : i ∈ selectedEntries p (aotGuestPage guestAddress) := by
      simp only [selectedEntries, hs, List.mem_filter]
      refine ⟨hmem, ?_⟩
      simp only [retiresEntry, hentry, hold, hold'.1, htrk.symm, rangesOverlap_page hpage, Bool.and_self]
    simp [hselected] at hold'

theorem retire_invariant {p : AotCodeCachePlacement} (h : RunInvariant p) (guestAddress : Word)
    (quarantine protectedWritable protectedExecute : Bool) :
    let p' := (retireAotGuestPage guestAddress quarantine protectedWritable protectedExecute p).1
    RunInvariant p' ∧ ∀ page, (pageState p.guestPages page).quarantined = true →
      (pageState p'.guestPages page).quarantined = true := by
  intro p'
  have hpage : ∀ s, (markPage quarantine s).guestPage = s.guestPage := fun _ => rfl
  have hcoherent := h.coherent.retire guestAddress quarantine protectedWritable protectedExecute
  obtain ⟨-, haddress, ⟨-, hstates, hpages, -⟩ | ⟨-, hstates, hpages, -⟩⟩ :=
    retireAotGuestPage_bookkeeping guestAddress quarantine protectedWritable protectedExecute p
  · have hactive : ∀ i entry, ActiveTracked p' i entry ↔ ActiveTracked p i entry := by
      intro i entry
      unfold ActiveTracked
      rw [haddress, hstates]
    refine ⟨⟨hcoherent, ⟨?_, ?_⟩⟩, ?_⟩
    · intro i entry he hne
      rw [isAotGuestPageRetired, hpages]
      exact h.flags.starts i entry ((hactive i entry).mp he) hne
    · intro i entry he page hmem
      rw [hpages]
      exact h.flags.clear i entry ((hactive i entry).mp he) page hmem
    · intro page hq
      rw [hpages]
      exact hq
  · rw [markRetired_eq] at hpages
    have hother : ∀ i entry, ActiveTracked p' i entry →
        ActiveTracked p i entry ∧ aotGuestPage guestAddress ∉ entryPages entry := by
      rintro i entry ⟨hentry, state, hstate, hactive, htracks⟩
      rw [haddress] at hentry
      exact activeTracked_retire h.coherent hstates hentry hstate hactive htracks
    refine ⟨⟨hcoherent, ⟨?_, ?_⟩⟩, ?_⟩
    · intro i entry he hne
      obtain ⟨hold, hoff⟩ := hother i entry he
      have hstart : aotGuestPage entry.guestAddress ≠ aotGuestPage guestAddress := by
        intro heq
        rw [← heq] at hoff
        exact hoff (start_mem_entryPages hne)
      rw [isAotGuestPageRetired, hpages, pageState_update hpage h.coherent.sorted, if_neg hstart]
      exact h.flags.starts i entry hold hne
    · intro i entry he page hmem
      obtain ⟨hold, hoff⟩ := hother i entry he
      have hne : page ≠ aotGuestPage guestAddress := by
        intro heq
        rw [← heq] at hoff
        exact hoff hmem
      rw [hpages, pageState_update hpage h.coherent.sorted, if_neg hne]
      exact h.flags.clear i entry hold page hmem
    · intro page hq
      rw [hpages, pageState_update hpage h.coherent.sorted]
      by_cases heq : page = aotGuestPage guestAddress
      · rw [if_pos heq]
        rw [heq] at hq
        simp only [markPage, hq, Bool.true_or]
      · rw [if_neg heq]
        exact hq

theorem EngineReachable.invariant {p : AotCodeCachePlacement} (h : EngineReachable p) : RunInvariant p := by
  induction h with
  | @start p entries hcleared =>
    -- no page is flagged while the initial entries are registered
    have hfold : ∀ (l : List AotAddressMapEntry) (q : AotCodeCachePlacement), RunInvariant q →
        (∀ page, (pageState q.guestPages page).quarantined = false) →
        RunInvariant (l.foldl (fun p entry => registerAotAddressMap (aotGuestPage entry.guestAddress) p
          entry { generation := 1, active := true, tracksGuestBytes := true }) q) := by
      intro l
      induction l with
      | nil => exact fun q hq _ => hq
      | cons entry l ih =>
        intro q hq hnone
        refine ih _ ⟨hq.coherent.append _ _ _, ?_⟩ ?_
        · apply hq.flags.register hq.coherent
          exact fun _ _ => ⟨Or.inl rfl, fun page _ => hnone page⟩
        · intro page
          have hflags := flags_registeredPages (aotGuestPage entry.guestAddress) entry
            q.addressMap.length { generation := 1, active := true, tracksGuestBytes := true }
            hq.coherent.sorted page
          exact hflags.1.trans (hnone page)
    apply hfold
    · refine ⟨(CoherenceReachable.start [] hcleared).coherent, ⟨?_, ?_⟩⟩
      · rintro i entry ⟨hentry, -⟩
        rw [hcleared.addressMap] at hentry
        cases hentry
      · rintro i entry ⟨hentry, -⟩
        rw [hcleared.addressMap] at hentry
        cases hentry
    · intro page
      rw [hcleared.guestPages]
      rfl
  | step call _ ih =>
    cases call with
    | append request generation image => exact (registerImage_invariant ih request generation image).1
    | retire guestAddress quarantine protectedWritable protectedExecute =>
      exact (retire_invariant ih guestAddress quarantine protectedWritable protectedExecute).1

/-- A byte of an instruction. -/
def HasByteAt (entry : AotAddressMapEntry) (address : Word) : Prop :=
  InAddressSpace entry ∧ entry.guestAddress.toNat ≤ address.toNat ∧
    address.toNat < entry.guestAddress.toNat + entry.guestLength

theorem HasByteAt.page_mem {entry : AotAddressMapEntry} {address : Word} (h : HasByteAt entry address) :
    aotGuestPage address ∈ entryPages entry := by
  rw [mem_entryPages]
  exact ⟨h.1, address.toNat, h.2.1, h.2.2, toNat_aotGuestPage _⟩

/-- In every placement a run of the engine reaches, no active tracked entry starts on a retired page
or has a byte on a quarantined one; a retirement that is reported done leaves no active tracked
entry on its page; and no call lifts a quarantine. -/
theorem retiredPages_hold {p : AotCodeCachePlacement} (h : EngineReachable p) :
    (∀ i entry, ActiveTracked p i entry → ∀ address, HasByteAt entry address →
      isAotGuestPageRetired p entry.guestAddress = false ∧ isAotGuestPageQuarantined p address = false) ∧
    (∀ guestAddress quarantine protectedWritable protectedExecute,
      let result := retireAotGuestPage guestAddress quarantine protectedWritable protectedExecute p
      result.2.retired = true → ∀ i entry, ActiveTracked result.1 i entry →
        ∀ address, HasByteAt entry address → aotGuestPage address ≠ aotGuestPage guestAddress) ∧
    ∀ (call : EngineCall) (address : Word), isAotGuestPageQuarantined p address = true →
      isAotGuestPageQuarantined (call.apply p) address = true := by
  have hinv := h.invariant
  refine ⟨?_, ?_, ?_⟩
  · intro i entry he address hbyte
    have hpage := hbyte.page_mem
    exact ⟨hinv.flags.starts i entry he (List.ne_nil_of_mem hpage),
      hinv.flags.clear i entry he _ hpage⟩
  · intro guestAddress quarantine protectedWritable protectedExecute result hretired i entry he
      address hbyte heq
    obtain ⟨-, haddress, ⟨hnot, -⟩ | ⟨-, hstates, -⟩⟩ :=
      retireAotGuestPage_bookkeeping guestAddress quarantine protectedWritable protectedExecute p
    · rw [hretired] at hnot
      cases hnot
    · obtain ⟨hentry, state, hstate, hactive, htracks⟩ := he
      rw [haddress] at hentry
      have hoff := (activeTracked_retire hinv.coherent hstates hentry hstate hactive htracks).2
      rw [← heq] at hoff
      exact hoff hbyte.page_mem
  · intro call address hq
    cases call with
    | append request generation image =>
      exact ((registerImage_invariant hinv request generation image).2.quarantined _).trans hq
    | retire guestAddress quarantine protectedWritable protectedExecute =>
      exact (retire_invariant hinv guestAddress quarantine protectedWritable protectedExecute).2 _ hq

/-- An instruction on the page at 0x2000, that page retired, and an append for the instruction at
0x1FFE that straddles into it. -/
def straddlingPlacement : AotCodeCachePlacement :=
  (EngineCall.append { runtimeBase := 0, runtimeSize := 0, arena := [], guestEntry := 0x1FFE } 2
    { addressMap := [⟨0x1FFE, 0, 4, 4⟩] }).apply
    ((EngineCall.retire 0x2000 false true true).apply (oneEntryPlacement ⟨0x2010, 0, 1, 1⟩))

theorem straddlingPlacement_reachable : EngineReachable straddlingPlacement :=
  .step _ (.step _ (.start [_] ⟨rfl, rfl, rfl, rfl⟩))

/-- An instruction of an excluded range, whose bytes are not tracked, and its page quarantined. -/
def untrackedPlacement : AotCodeCachePlacement :=
  (EngineCall.retire 0x1000 true true true).apply
    ((EngineCall.append { runtimeBase := 0, runtimeSize := 0, arena := [], guestEntry := 0x1020
                          excludedRanges := [⟨0x1020, 1⟩] } 2
      { addressMap := [⟨0x1020, 0, 1, 1⟩] }).apply (oneEntryPlacement ⟨0x1010, 0, 1, 1⟩))

theorem untrackedPlacement_reachable : EngineReachable untrackedPlacement :=
  .step _ (.step _ (.start [_] ⟨rfl, rfl, rfl, rfl⟩))

/-- An instruction past the top of the address space, and its first page retired. -/
def pastTopPlacement : AotCodeCachePlacement :=
  (EngineCall.retire 0xFFFFF000 false true true).apply
    (initializeAotPageCoherence { placed := true, memory := fun _ => 0 }
      [⟨0xFFFFF000, 0, 1, 1⟩, ⟨0xFFFFFFFE, 0, 4, 4⟩])

theorem pastTopPlacement_reachable : EngineReachable pastTopPlacement :=
  .step _ (.start [_, _] ⟨rfl, rfl, rfl, rfl⟩)

/-- The append activates the straddling entry over the page that stays retired; the untracked entry
stays active on the quarantined page; the entry past the top, which is on no page, stays active
though its first byte is on a retired one. -/
theorem active_on_flagged_pages :
    (EngineReachable straddlingPlacement ∧ ActiveTracked straddlingPlacement 1 ⟨0x1FFE, 0, 4, 4⟩ ∧
      HasByteAt ⟨0x1FFE, 0, 4, 4⟩ 0x2000 ∧ isAotGuestPageRetired straddlingPlacement 0x2000 = true) ∧
    (EngineReachable untrackedPlacement ∧ untrackedPlacement.isActive 1 = true ∧
      untrackedPlacement.addressMap[1]? = some ⟨0x1020, 0, 1, 1⟩ ∧
      isAotGuestPageQuarantined untrackedPlacement 0x1020 = true) ∧
    (EngineReachable pastTopPlacement ∧ ActiveTracked pastTopPlacement 1 ⟨0xFFFFFFFE, 0, 4, 4⟩ ∧
      isAotGuestPageRetired pastTopPlacement 0xFFFFFFFE = true) := by
  refine ⟨⟨straddlingPlacement_reachable, ⟨?_, ⟨2, true, true⟩, ?_, rfl, rfl⟩, ?_, ?_⟩,
    ⟨untrackedPlacement_reachable, ?_, ?_, ?_⟩, ⟨pastTopPlacement_reachable, ?_, ?_⟩⟩
  · decide +kernel
  · decide +kernel
  · exact ⟨by decide, by decide, by decide⟩
  · decide +kernel
  · decide +kernel
  · decide +kernel
  · decide +kernel
  · exact ⟨by decide +kernel, ⟨1, true, true⟩, by decide +kernel, rfl, rfl⟩
  · decide +kernel

/-- Its start page is not retired, and neither of its pages is quarantined. -/
theorem retiredPages_hold_straddling :
    isAotGuestPageRetired straddlingPlacement 0x1FFE = false ∧
      isAotGuestPageQuarantined straddlingPlacement 0x2000 = false :=
  (retiredPages_hold straddlingPlacement_reachable).1 1 ⟨0x1FFE, 0, 4, 4⟩
    ⟨by decide +kernel, ⟨2, true, true⟩, by decide +kernel, rfl, rfl⟩ 0x2000
    ⟨by decide, by decide, by decide⟩

end Repiu.Engine
