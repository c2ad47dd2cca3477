import Repiu.Engine.ChainTheorems

/-!
# Retired code stays closed

An inactive entry starts with a trap, or with the jump an append wrote over it.
Patches and re-resolutions do not ask whether the entry they write to is active;
`RespectsRetired` is what a run has to avoid, and under it no inactive entry is
opened again.
-/

namespace Repiu.Engine

open Repiu.Runtime Repiu.Memory Repiu.X86

/-! ## Closed entries -/

/-- The first byte of an inactive entry is a trap, or the jump to a newer entry of the same guest
address that is active or itself closed. -/
inductive Closed (p : AotCodeCachePlacement) : ℕ → Prop
  | trap {i : ℕ} {e : AotAddressMapEntry} : p.addressMap[i]? = some e → p.memory e.cacheOffset = 0xCC →
      Closed p i
  | relinked {i j : ℕ} {e e' : AotAddressMapEntry} : p.addressMap[i]? = some e →
      p.memory e.cacheOffset = 0xE9 → i < j → p.addressMap[j]? = some e' →
      e'.guestAddress = e.guestAddress → relativeTarget p.memory (e.cacheOffset + 1) = e'.cacheOffset →
      (p.isActive j = false → Closed p j) → Closed p i

/-- The flat form of `Closed`, which operations keep. -/
def Shut (m : Memory) (map : List AotAddressMapEntry) (i : ℕ) (e : AotAddressMapEntry) : Prop :=
  m e.cacheOffset = 0xCC ∨
  (m e.cacheOffset = 0xE9 ∧ 5 ≤ e.emittedLength ∧ ∃ (j : ℕ) (e' : AotAddressMapEntry), i < j ∧
    map[j]? = some e' ∧ e'.guestAddress = e.guestAddress ∧
    relativeTarget m (e.cacheOffset + 1) = e'.cacheOffset)

/-- Every inactive entry is shut. -/
def RetiredShut (p : AotCodeCachePlacement) : Prop :=
  ∀ (i : ℕ) (e : AotAddressMapEntry), p.addressMap[i]? = some e → p.isActive i = false →
    Shut p.memory p.addressMap i e

/-- The chain of jumps ends, since it leads to newer and newer entries. -/
theorem RetiredShut.closed {p : AotCodeCachePlacement} (h : RetiredShut p) {i : ℕ}
    {e : AotAddressMapEntry} (he : p.addressMap[i]? = some e) (hi : p.isActive i = false) : Closed p i := by
  induction hn : p.addressMap.length - i using Nat.strong_induction_on generalizing i e with
  | _ n ih =>
    rcases h i e he hi with htrap | ⟨hbyte, -, j, e', hij, he', hguest, htarget⟩
    · exact .trap he htrap
    · refine .relinked he hbyte hij he' hguest htarget fun hj => ?_
      have hlt := (List.getElem?_eq_some_iff.mp he').1
      exact ih (p.addressMap.length - j) (by omega) he' hj rfl

/-- The bytes `Shut` reads are kept, or the entry is trapped. -/
def KeepsShut (m m' : Memory) (e : AotAddressMapEntry) : Prop :=
  m' e.cacheOffset = 0xCC ∨
  (m' e.cacheOffset = m e.cacheOffset ∧ (m e.cacheOffset = 0xE9 → 5 ≤ e.emittedLength →
    ∀ a, e.cacheOffset < a → a < e.cacheOffset + 5 → m' a = m a))

theorem Shut.keep {m m' : Memory} {map map' : List AotAddressMapEntry} {i : ℕ} {e : AotAddressMapEntry}
    (h : Shut m map i e) (hkeep : KeepsShut m m' e)
    (hmap : ∀ (j : ℕ) (e' : AotAddressMapEntry), map[j]? = some e' → map'[j]? = some e') :
    Shut m' map' i e := by
  rcases hkeep with htrap | ⟨hbyte, hrest⟩
  · exact Or.inl htrap
  rcases h with htrap | ⟨hjump, hlen, j, e', hij, he', hguest, htarget⟩
  · exact Or.inl (hbyte.trans htrap)
  · refine Or.inr ⟨hbyte.trans hjump, hlen, j, e', hij, hmap j e' he', hguest, ?_⟩
    rw [← htarget, relativeTarget, relativeTarget,
      get32_congr fun a _ _ => hrest hjump hlen a (by omega) (by omega)]

/-! ## What an operation has to respect -/

/-- The operation opens no slot of an inactive entry, and does not write into the jump over one. -/
def RespectsRetired (table : Table) (p : AotCodeCachePlacement) : Operation → Prop
  | .append emission fuel request env => ∀ plan image,
      buildAotTranslationPlanFromEntry table fuel (arenaView p request) request.guestEntry
        request.excludedRanges = some plan →
      buildAotCodeCacheImage ⟨table, emission, appendOptions p⟩ plan = some image →
      ∀ e ∈ image.addressMap, activatesEntry p request.guestEntry e = false →
        segmentOpens (request.segmentTable.getD .empty) env.host image.code e.cacheOffset = false
  | .retire _ _ _ _ => True
  | .reResolve segments host protectedWritable => protectedWritable = true →
      ∀ (i : ℕ) (e : AotAddressMapEntry), p.addressMap[i]? = some e → p.isActive i = false →
        segmentOpens segments host p.sites e.cacheOffset = false
  | .patch call => ∀ x ∈ chosenGuard p call, call.protectedWritable = true →
      p.memory x.1.cacheOffset = 0xE9 → x.1.cacheOffset + 5 ≤ x.2.targetImmediateOffset

/-- The runs from a placement on in which no operation reports the placement unsafe. -/
inductive SafeRun (table : Table) (respects : AotCodeCachePlacement → Operation → Prop) :
    AotCodeCachePlacement → Prop
  | place {p : AotCodeCachePlacement} : Nonempty (Places table p) → SafeRun table respects p
  | step {p p' : AotCodeCachePlacement} {op : Operation} : SafeRun table respects p →
      op.apply table p = some (p', false) → respects p op → SafeRun table respects p'

theorem SafeRun.reachable {table : Table} {respects : AotCodeCachePlacement → Operation → Prop}
    {p : AotCodeCachePlacement} (h : SafeRun table respects p) : Reachable table p := by
  induction h with
  | place hp => exact .place hp
  | step _ hstep _ ih => exact .step ih hstep

/-! ## One operation -/

section Step

variable {table : Table} {p : AotCodeCachePlacement}

/-- Different entries are apart. -/
theorem Laid.entries_ne (h : Laid p) {e e' : AotAddressMapEntry} (he : e ∈ p.addressMap)
    (he' : e' ∈ p.addressMap) (hne : e.cacheOffset ≠ e'.cacheOffset) :
    e.limit ≤ e'.cacheOffset ∨ e'.limit ≤ e.cacheOffset := by
  rcases Nat.lt_or_gt_of_ne hne with hlt | hlt
  · exact Or.inl (limit_le_of_lt h.sites.entries_apart he he' hlt)
  · exact Or.inr (limit_le_of_lt h.sites.entries_apart he' he hlt)

/-- Entries of different indices are apart. -/
theorem Laid.index_apart (h : Laid p) {i j : ℕ} {e e' : AotAddressMapEntry}
    (he : p.addressMap[i]? = some e) (he' : p.addressMap[j]? = some e') (hne : i ≠ j) :
    e.limit ≤ e'.cacheOffset ∨ e'.limit ≤ e.cacheOffset := by
  obtain ⟨hi, rfl⟩ := List.getElem?_eq_some_iff.mp he
  obtain ⟨hj, rfl⟩ := List.getElem?_eq_some_iff.mp he'
  have hpair := List.pairwise_iff_getElem.mp h.sites.entries_apart
  rcases Nat.lt_or_gt_of_ne hne with hlt | hlt
  · exact Or.inl (hpair i j hi hj hlt)
  · exact Or.inr (hpair j i hj hi hlt)

theorem Laid.start_lt_limit (h : Laid p) {e : AotAddressMapEntry} (he : e ∈ p.addressMap) :
    e.cacheOffset < e.limit := by
  have := h.sites.entries_in e he
  unfold AotAddressMapEntry.limit
  omega

theorem trapEntries_cases (p : AotCodeCachePlacement) (selected : List ℕ) (m : Memory) (a : ℕ) :
    trapEntries p selected m a = 0xCC ∨ trapEntries p selected m a = m a := by
  unfold trapEntries
  induction selected generalizing m with
  | nil => exact Or.inr rfl
  | cons i is ih =>
    rw [List.foldl_cons]
    cases p.addressMap[i]? with
    | none => exact ih m
    | some e =>
      rcases ih (m.set e.cacheOffset 0xCC) with h | h
      · exact Or.inl h
      · by_cases ha : a = e.cacheOffset
        · rw [ha, set_self] at h
          exact Or.inl (ha ▸ h)
        · rw [set_ne _ _ ha] at h
          exact Or.inr h

/-- The traps over the selected entries. -/
theorem trapEntries_selected (p : AotCodeCachePlacement) {selected : List ℕ} (m : Memory) {i : ℕ}
    {e : AotAddressMapEntry} (hi : i ∈ selected) (he : p.addressMap[i]? = some e) :
    trapEntries p selected m e.cacheOffset = 0xCC := by
  unfold trapEntries
  induction selected generalizing m with
  | nil => cases hi
  | cons j js ih =>
    rw [List.foldl_cons]
    rcases List.mem_cons.mp hi with rfl | hi
    · have := trapEntries_cases p js (m.set e.cacheOffset 0xCC) e.cacheOffset
      rw [set_self, or_self, trapEntries] at this
      simp only [he]
      exact this
    · exact ih _ hi

/-- A reset writes the six bytes of the guard. -/
theorem resetGuard_out {size : ℕ} {page : Word} {target : ℕ} {g : AotInlineCacheEntry} (m : Memory) {a : ℕ}
    (ha : a < g.guardOffset ∨ g.guardOffset + 6 ≤ a) : resetGuard size page target m g a = m a := by
  rcases resetGuard_cases size page target m g with heq | heq
  · rw [heq]
  · rw [heq, set_ne _ _ (by omega), set32_out _ _ (by omega), set_ne _ _ (by omega)]

/-- Resets stay behind the first five bytes of every entry. -/
theorem Laid.resets_head (h : Laid p) (page : Word) (m : Memory) {e : AotAddressMapEntry}
    (he : e ∈ p.addressMap) {a : ℕ} (hlo : e.cacheOffset ≤ a) (hhi : a < e.cacheOffset + 5)
    (hin : a < e.limit) :
    resetInlineCacheGuardsTargetingPage p.size page p.sites.indirectInlineCacheSites m a = m a := by
  rw [resetInlineCacheGuardsTargetingPage_eq]
  refine foldl_frame _ _ m a fun m x hx => resetGuard_out m ?_
  obtain ⟨s, hs, g, hg, rfl⟩ := mem_allGuards.mp hx
  obtain ⟨e', hof⟩ := h.guardOf hs hg
  have h₁ := hof.shape.immediate_ge
  have h₂ := hof.shape.guard_eq
  have h₃ := hof.shape.jump_ge
  have hgt := hof.compare_gt
  have hinside := hof.inside h
  simp only
  by_cases heq : e.cacheOffset = e'.cacheOffset
  · omega
  · rcases h.entries_ne he hof.entry heq with h | h <;> omega

/-- What a retirement leaves of the start of an entry. -/
theorem Laid.retire_keepsShut (h : Laid p) (page : Word) (selected : List ℕ)
    {e : AotAddressMapEntry} (he : e ∈ p.addressMap) :
    KeepsShut p.memory (resetInlineCacheGuardsTargetingPage p.size page p.sites.indirectInlineCacheSites
      (trapEntries p selected p.memory)) e := by
  have hlt := h.start_lt_limit he
  rcases trapEntries_cases p selected p.memory e.cacheOffset with htrap | hsame
  · exact Or.inl (by rw [h.resets_head page _ he le_rfl (by omega) hlt, htrap])
  · refine Or.inr ⟨by rw [h.resets_head page _ he le_rfl (by omega) hlt, hsame], ?_⟩
    intro _ hlen a hlo hhi
    have hin : a < e.limit := by
      unfold AotAddressMapEntry.limit
      omega
    rw [h.resets_head page _ he hlo.le hhi hin]
    refine trapEntries_frame selected _ fun i _ e' he' => ?_
    rintro rfl
    have := limit_le_of_lt h.sites.entries_apart he (List.mem_of_getElem? he') hlo
    omega

theorem retiredShut_retire (hlaid : Laid p) (h : RetiredShut p) (guestAddress : Word)
    (quarantine protectedWritable protectedExecute : Bool) :
    RetiredShut (retireAotGuestPage guestAddress quarantine protectedWritable protectedExecute p).1 := by
  have hkeep : ∀ selected (i : ℕ) (e : AotAddressMapEntry), p.addressMap[i]? = some e →
      p.isActive i = false →
      Shut (resetInlineCacheGuardsTargetingPage p.size (aotGuestPage guestAddress)
        p.sites.indirectInlineCacheSites (trapEntries p selected p.memory)) p.addressMap i e :=
    fun selected i e he hi => (h i e he hi).keep
      (hlaid.retire_keepsShut _ selected (List.mem_of_getElem? he)) fun _ _ hj => hj
  unfold retireAotGuestPage
  simp only
  split
  · exact h
  split
  · exact h
  split
  · exact h
  split
  · exact h
  split
  · exact hkeep _
  · rename_i state _ _ _ _
    intro i e he hi
    simp only [AotCodeCachePlacement.isActive, isActive_deactivate, Bool.and_eq_false_iff,
      Bool.not_eq_false', List.contains_iff_mem] at hi
    rcases hi with hi | hi
    · exact hkeep _ i e he hi
    · -- an entry this retirement traps
      refine Or.inl ?_
      have hmem := List.mem_of_getElem? he
      have hlt := hlaid.start_lt_limit hmem
      simp only
      rw [hlaid.resets_head _ _ hmem le_rfl (by omega) hlt]
      exact trapEntries_selected p _ hi he

/-- Resolution with a closed slot keeps the start of its entry, or traps it. -/
theorem Resolves.keepsShut {opened : ℕ → Bool} {m m' : Memory}
    (h : Resolves 0 [] p.sites.segmentViews opened m m') (hlaid : Laid p) {e : AotAddressMapEntry}
    (he : e ∈ p.addressMap) (hclosed : opened e.cacheOffset = false) : KeepsShut m m' e := by
  have hin : ∀ a, e.cacheOffset ≤ a → a < e.limit → ∀ v ∈ p.sites.segmentViews, Covers 0 v a →
      v.start = e.cacheOffset := by
    intro a hlo hhi v hv hcovers
    obtain ⟨e', he', hview⟩ := hlaid.sites.views_in v hv
    have hstart := hview.start_eq
    by_contra hne
    have hlt := hlaid.start_lt_limit he'
    have hopening := hview.opening_le
    have hcov : e'.cacheOffset ≤ a ∧ a < e'.limit := by
      rcases hcovers with heq | ⟨hge, hlt⟩ | ⟨w, hw, hge, hlt⟩
      · omega
      · omega
      · have := hview.windows_in w hw
        omega
    rcases hlaid.entries_ne he he' (by omega) with h | h <;> omega
  have hbyte : ∀ a, e.cacheOffset ≤ a → a < e.limit →
      m' a = m a ∨ (m' a = 0xCC ∧ ∃ v ∈ p.sites.segmentViews, a = 0 + v.start) := by
    intro a hlo hhi
    refine h a (by simp) fun v hv hcovers => ?_
    rw [hin a hlo hhi v hv hcovers]
    exact hclosed
  rcases hbyte e.cacheOffset le_rfl (hlaid.start_lt_limit he) with hsame | ⟨htrap, -⟩
  · refine Or.inr ⟨hsame, fun _ hlen a hlo hhi => ?_⟩
    have hlimit : a < e.limit := by
      unfold AotAddressMapEntry.limit
      omega
    rcases hbyte a hlo.le hlimit with hsame | ⟨-, v, hv, heq⟩
    · exact hsame
    · have := hin a hlo.le hlimit v hv (Or.inl heq)
      omega
  · exact Or.inl htrap

theorem retiredShut_reResolve (hlaid : Laid p) (h : RetiredShut p) {segments : AotSegmentTable}
    {host : PlacementHost} {protectedWritable : Bool}
    (hrespects : RespectsRetired table p (.reResolve segments host protectedWritable)) :
    RetiredShut (reResolveWin32AotSegmentOverrides segments host protectedWritable p) := by
  unfold reResolveWin32AotSegmentOverrides
  split
  · exact h
  · rename_i hgo
    rw [not_or, not_or, not_not, not_not, not_not] at hgo
    intro i e he hi
    refine (h i e he hi).keep ?_ fun _ _ hj => hj
    exact (resolves_reResolveSegments segments host p.sites p.memory).keepsShut hlaid
      (List.mem_of_getElem? he) (hrespects hgo.2.2 i e he hi)

/-- Writes behind the immediate of a guard keep the start of every entry, except that a jump over
the guard's own entry may reach as far. -/
theorem Laid.patch_keepsShut (hlaid : Laid p) {site : AotIndirectInlineCacheSite}
    (hs : site ∈ p.sites.indirectInlineCacheSites) {g : AotInlineCacheEntry} (hg : g ∈ siteGuards site)
    {m m' : Memory}
    (hframe : ∀ a, a < g.targetImmediateOffset ∨ g.jumpDisplacementOffset + 4 ≤ a → m' a = m a)
    (hrespects : m site.cacheOffset = 0xE9 → site.cacheOffset + 5 ≤ g.targetImmediateOffset)
    {e : AotAddressMapEntry} (he : e ∈ p.addressMap) : KeepsShut m m' e := by
  obtain ⟨e', hof⟩ := hlaid.guardOf hs hg
  have h₁ := hof.shape.immediate_ge
  have h₂ := hof.shape.guard_eq
  have h₃ := hof.shape.jump_ge
  have hgt := hof.compare_gt
  have hinside := hof.inside hlaid
  have hstart := hof.chain.start_eq
  have hlt := hlaid.start_lt_limit he
  by_cases heq : e.cacheOffset = e'.cacheOffset
  · refine Or.inr ⟨hframe _ (by omega), fun hjump _ a hlo hhi => hframe a ?_⟩
    rw [heq, ← hstart] at hjump
    have := hrespects hjump
    omega
  · have hapart := hlaid.entries_ne he hof.entry heq
    refine Or.inr ⟨hframe _ (by omega), fun _ hlen a hlo hhi => hframe a ?_⟩
    have hlimit : a < e.limit := by
      unfold AotAddressMapEntry.limit
      omega
    omega

theorem retiredShut_patch (hlaid : Laid p) (h : RetiredShut p) {call : PatchCall}
    (hrespects : RespectsRetired table p (.patch call)) :
    RetiredShut (patchAotIndirectInlineCache call p).1 := by
  rcases patchAotIndirectInlineCache_cases call p with
    ⟨hsame, -⟩ | ⟨index, site, guard, cursor, hselect, hsite, -, -, hguard, -, heq⟩
  · rw [hsame]
    exact h
  rw [heq]
  have hs := List.mem_of_getElem? hsite
  have hg := List.mem_of_getElem? hguard
  obtain ⟨e', hof⟩ := hlaid.guardOf hs hg
  obtain ⟨m, hr, hwrites, hframe⟩ := patchGuard_frame hof.shape call
    { p with sites := setCursor p.sites index cursor }
    (guardLink site (chooseGuard p.memory (siteGuards site) call.guestTarget site.replaceCursor).1)
  rw [hr]
  intro i e he hi
  refine (h i e he hi).keep ?_ fun _ _ hj => hj
  rcases hwrites with hwritable | rfl
  · exact hlaid.patch_keepsShut hs hg hframe
      (hrespects _ (chosenGuard_eq_some hselect hsite hguard) hwritable) (List.mem_of_getElem? he)
  · exact Or.inr ⟨rfl, fun _ _ _ _ _ => rfl⟩

/-! ### Appending -/

/-- A fold that sets traps leaves a trap or the byte from before. -/
theorem foldl_traps {f : List Byte → AotAddressMapEntry → List Byte}
    (hf : ∀ bytes e, f bytes e = bytes ∨ f bytes e = bytes.set e.cacheOffset 0xCC)
    (map : List AotAddressMapEntry) (bytes : List Byte) (a : ℕ) :
    (map.foldl f bytes).getD a 0 = 0xCC ∨ (map.foldl f bytes).getD a 0 = bytes.getD a 0 := by
  induction map generalizing bytes with
  | nil => exact Or.inr rfl
  | cons e es ih =>
    rw [List.foldl_cons]
    rcases ih (f bytes e) with h | h
    · exact Or.inl h
    rw [h]
    rcases hf bytes e with hstep | hstep
    · rw [hstep]
      exact Or.inr rfl
    rw [hstep]
    simp only [List.getD_eq_getElem?_getD]
    by_cases ha : e.cacheOffset = a
    · by_cases hlt : a < bytes.length
      · rw [ha, List.getElem?_set_self hlt]
        exact Or.inl rfl
      · rw [List.set_eq_of_length_le (by omega)]
        exact Or.inr rfl
    · rw [List.getElem?_set_ne ha]
      exact Or.inr rfl

/-- An entry that is not activated is copied with a trap. -/
theorem closeInactiveEntries_closed {guestEntry : Word} {image : AotCodeCacheImage} {e : AotAddressMapEntry}
    (he : e ∈ image.addressMap) (hlt : e.cacheOffset < image.bytes.length)
    (hactive : activatesEntry p guestEntry e = false) :
    (closeInactiveEntries p guestEntry image).getD e.cacheOffset 0 = 0xCC := by
  unfold closeInactiveEntries
  generalize image.bytes = bytes at hlt
  generalize image.addressMap = map at he
  induction map generalizing bytes with
  | nil => cases he
  | cons x xs ih =>
    rw [List.foldl_cons]
    rcases List.mem_cons.mp he with rfl | hx
    · have hset : (bytes.set e.cacheOffset 0xCC).getD e.cacheOffset 0 = 0xCC := by
        rw [List.getD_eq_getElem?_getD, List.getElem?_set_self hlt]
        rfl
      have hstep : ∀ (bytes : List Byte) (x : AotAddressMapEntry),
          (if activatesEntry p guestEntry x then bytes else bytes.set x.cacheOffset 0xCC) = bytes ∨
          (if activatesEntry p guestEntry x then bytes else bytes.set x.cacheOffset 0xCC) =
            bytes.set x.cacheOffset 0xCC := by
        intro bytes x
        split_ifs
        · exact Or.inl rfl
        · exact Or.inr rfl
      rw [hactive]
      rcases foldl_traps hstep xs (bytes.set e.cacheOffset 0xCC) e.cacheOffset with h | h
      · exact h
      · exact h.trans hset
    · refine ih _ ?_ hx
      split_ifs
      · exact hlt
      · rw [List.length_set]
        exact hlt

/-- One relink: the entry jumps to the fresh one, another entry is left alone. -/
theorem Laid.relinkEntry_shut (hlaid : Laid p) {map : List AotAddressMapEntry} {i : ℕ}
    {e : AotAddressMapEntry} (he : p.addressMap[i]? = some e) {m : Memory} (h : Shut m map i e)
    {index j : ℕ} {fresh : AotAddressMapEntry} (hij : i < j) (hj : map[j]? = some fresh)
    (hguest : index = i → fresh.guestAddress = e.guestAddress) :
    Shut (relinkEntry p fresh.cacheOffset m index) map i e := by
  unfold relinkEntry
  cases hstale : p.addressMap[index]? with
  | none => exact h
  | some stale =>
    simp only
    split_ifs with hskip
    · exact h
    rw [not_or, not_or, not_or, not_lt, not_lt, not_le] at hskip
    obtain ⟨-, hlen, hlo, hhi⟩ := hskip
    by_cases hindex : index = i
    · subst hindex
      obtain rfl : stale = e := Option.some.inj (hstale.symm.trans he)
      refine Or.inr ⟨?_, hlen, j, fresh, hij, hj, hguest rfl, ?_⟩
      · rw [set32_out _ _ (by omega), set_self]
      · refine relativeTarget_of_get32 ?_ ?_ ?_
        · rw [get32_set32]
          congr 1
        · push_cast
          omega
        · push_cast
          omega
    · refine h.keep ?_ fun _ _ hj => hj
      have hmem := List.mem_of_getElem? he
      have hmem' := List.mem_of_getElem? hstale
      have hlt := hlaid.start_lt_limit hmem
      have hlt' := hlaid.start_lt_limit hmem'
      have hne := hlaid.index_apart he hstale (Ne.symm hindex)
      have hstale' : stale.limit = stale.cacheOffset + stale.emittedLength := rfl
      refine Or.inr ⟨?_, fun _ hlen' a hlo hhi => ?_⟩
      · rw [set32_out _ _ (by omega), set_ne _ _ (by omega)]
      · have : a < e.limit := by
          unfold AotAddressMapEntry.limit
          omega
        rw [set32_out _ _ (by omega), set_ne _ _ (by omega)]

/-- All relinks. -/
theorem Laid.relinkEntries_shut (hlaid : Laid p) {guestEntry : Word} {image : AotCodeCacheImage}
    {map : List AotAddressMapEntry} {i : ℕ} {e : AotAddressMapEntry} (he : p.addressMap[i]? = some e)
    (hmap : ∀ fresh ∈ image.addressMap, ∃ j, i < j ∧ map[j]? = some (fresh.move p.size)) {m : Memory}
    (h : Shut m map i e) : Shut (relinkEntries p guestEntry image m) map i e := by
  unfold relinkEntries
  refine List.foldlRecOn (motive := fun m => Shut m map i e) image.addressMap _ h
    fun m hm fresh hfresh => ?_
  split_ifs
  swap
  · exact hm
  obtain ⟨j, hij, hj⟩ := hmap fresh hfresh
  refine List.foldlRecOn (motive := fun m => Shut m map i e) (p.inactiveByGuestAddress fresh.guestAddress) _
    hm fun m hm index hindex => ?_
  have hsame : index = i → (fresh.move p.size).guestAddress = e.guestAddress := by
    intro heq
    have hguest := (List.mem_filter.mp hindex).2
    rw [heq, he] at hguest
    simpa [AotAddressMapEntry.move, eq_comm] using hguest
  have hshut := hlaid.relinkEntry_shut he hm hij hj hsame
  exact hshut

/-- A new entry that is not activated is behind a trap. -/
theorem trap_append (hlaid : Laid p) {request : AppendRequest} {env : AppendEnvironment}
    {image : AotCodeCacheImage} {resolved : Memory} (himage : ImageSpec image.code image.addressMap)
    (hresolved : resolveImage p.size (p.baseAddress + p.size) env.host
      (request.segmentTable.getD .empty) image
      (p.memory.setBytes p.size (closeInactiveEntries p request.guestEntry image)) = .ok resolved)
    {e : AotAddressMapEntry} (he : e ∈ image.addressMap)
    (hactive : activatesEntry p request.guestEntry e = false)
    (hclosed : segmentOpens (request.segmentTable.getD .empty) env.host image.code e.cacheOffset = false) :
    relinkEntries p request.guestEntry image resolved (p.size + e.cacheOffset) = 0xCC := by
  have hresolves := resolves_resolveImage p.size (p.baseAddress + p.size)
    (request.segmentTable.getD .empty) env.host image hresolved
  have hin := himage.sites.entries_in e he
  have hbytes : e.cacheOffset < image.bytes.length := by
    unfold AotAddressMapEntry.limit at hin
    show e.cacheOffset < image.code.bytes.length
    omega
  rw [hlaid.relinkEntries_behind _ _ _ (by omega)]
  have hout : ∀ w ∈ image.code.placementWindows,
      p.size + e.cacheOffset < p.size + w.1 ∨ p.size + w.1 + w.2 ≤ p.size + e.cacheOffset := by
    intro w hw
    have := himage.windows.off_starts w hw e he
    omega
  have hviews : ∀ v ∈ image.code.segmentViews, Covers p.size v (p.size + e.cacheOffset) →
      segmentOpens (request.segmentTable.getD .empty) env.host image.code v.start = false := by
    intro v hv hcovers
    obtain ⟨e', he', hview⟩ := himage.sites.views_in v hv
    have hstart := hview.start_eq
    have hopening := hview.opening_le
    have hin' := himage.sites.entries_in e' he'
    have hlimit : e'.limit = e'.cacheOffset + e'.emittedLength := rfl
    have heq : v.start = e.cacheOffset := by
      by_contra hne
      have hcov : e'.cacheOffset ≤ e.cacheOffset ∧ e.cacheOffset < e'.limit := by
        rcases hcovers with heq | ⟨hge, hlt⟩ | ⟨w, hw, hge, hlt⟩
        · omega
        · omega
        · have := hview.windows_in w hw
          omega
      have := limit_le_of_lt himage.sites.entries_apart he' he (by omega)
      omega
    rw [heq]
    exact hclosed
  rcases hresolves _ hout hviews with hsame | ⟨htrap, -⟩
  · have hlen := closeInactiveEntries_length p request.guestEntry image
    rw [hsame, setBytes_in _ _ (by omega), closeInactiveEntries_closed he hbytes hactive]
  · exact htrap

theorem retiredShut_append (hpush : PushRows table) (hlaid : Laid p) (h : RetiredShut p) {emission : Host}
    {fuel : ℕ} {request : AppendRequest} {env : AppendEnvironment}
    {r : AotCodeCachePlacement × AotDynamicAppendResult}
    (happend : appendDynamicAotTranslation table emission fuel request env p = some r)
    (hsafe : r.2.status.unsafeFailure = false)
    (hrespects : RespectsRetired table p (.append emission fuel request env)) : RetiredShut r.1 := by
  rcases appendDynamicAotTranslation_cases happend with
    ⟨hsame, -⟩ | ⟨plan, image, hplan, hbuilt, -, -, rfl⟩
  · rw [hsame]
    exact h
  have himage := imageSpec_buildAotCodeCacheImage ⟨hpush, planned_records hplan⟩ hbuilt
  rcases publishImage_cases request env image p with
    ⟨generation, heq, -⟩ | ⟨hfailed, -⟩ | ⟨-, resolved, hresolved, heq⟩
  · rw [heq]
    exact h
  · rw [hsafe] at hfailed
    contradiction
  rw [heq]
  obtain ⟨hmap, hstates, hsame⟩ := registerImage_spec p
    { p with
      nextGeneration := p.nextGeneration + 1
      memory := relinkEntries p request.guestEntry image resolved }
    request p.nextGeneration image
  intro i e he hi
  simp only [AotCodeCachePlacement.isActive, hmap, hstates, hsame.memory] at he hi ⊢
  by_cases hold : i < p.addressMap.length
  · -- an entry from before
    rw [List.getElem?_append_left hold] at he
    rw [List.getElem?_append_left (hlaid.states ▸ hold)] at hi
    have hin := hlaid.sites.entries_in e (List.mem_of_getElem? he)
    unfold AotAddressMapEntry.limit at hin
    refine hlaid.relinkEntries_shut he ?_ ((h i e he hi).keep (Or.inr ⟨resolveImage_before hresolved (by omega), ?_⟩) ?_)
    · intro fresh hfresh
      obtain ⟨n, hn, rfl⟩ := List.getElem_of_mem hfresh
      refine ⟨p.addressMap.length + n, by omega, ?_⟩
      rw [List.getElem?_append_right (Nat.le_add_right _ _), Nat.add_sub_cancel_left, List.getElem?_map,
        List.getElem?_eq_getElem hn, Option.map_some]
    · intro _ hlen a hlo hhi
      exact resolveImage_before hresolved (by omega)
    · intro j e' he'
      rw [List.getElem?_append_left (List.getElem?_eq_some_iff.mp he').1]
      exact he'
  · -- an entry of the new image
    rw [not_lt] at hold
    rw [List.getElem?_append_right hold, List.getElem?_map, Option.map_eq_some_iff] at he
    obtain ⟨fresh, hfresh, rfl⟩ := he
    rw [List.getElem?_append_right (hlaid.states ▸ hold), hlaid.states, List.getElem?_map, hfresh] at hi
    simp only [Option.map_some, Option.getD_some] at hi
    have hmem := List.mem_of_getElem? hfresh
    exact Or.inl (trap_append hlaid himage hresolved hmem hi
      (hrespects plan image hplan hbuilt fresh hmem hi))

theorem RetiredShut.step (hpush : PushRows table) {p' : AotCodeCachePlacement} {op : Operation}
    (hlaid : Laid p) (h : RetiredShut p) (hstep : op.apply table p = some (p', false))
    (hrespects : RespectsRetired table p op) : RetiredShut p' := by
  cases op with
  | append emission fuel request env =>
    obtain ⟨r, hr, heq⟩ := Option.map_eq_some_iff.mp hstep
    simp only [Prod.mk.injEq] at heq
    rw [← heq.1]
    exact retiredShut_append hpush hlaid h hr heq.2 hrespects
  | retire guestAddress quarantine protectedWritable protectedExecute =>
    simp only [Operation.apply, Option.some.injEq, Prod.mk.injEq] at hstep
    rw [← hstep.1]
    exact retiredShut_retire hlaid h _ _ _ _
  | reResolve segments host protectedWritable =>
    simp only [Operation.apply, Option.some.injEq, Prod.mk.injEq] at hstep
    rw [← hstep.1]
    exact retiredShut_reResolve hlaid h hrespects
  | patch call =>
    simp only [Operation.apply, Option.some.injEq, Prod.mk.injEq] at hstep
    rw [← hstep.1]
    exact retiredShut_patch hlaid h hrespects

end Step

/-! ## Runs -/

/-- A placed image has no inactive entry. -/
theorem retiredShut_place {env : PlaceEnvironment} {image : AotCodeCacheImage} {p : AotCodeCachePlacement}
    (h : placeAotCodeCache env image = some p) : RetiredShut p := by
  obtain ⟨base, memory, -, -, -, rfl⟩ := placeAotCodeCache_eq_some h
  obtain ⟨hmap, hstates, -⟩ :=
    initializeAotPageCoherence_spec (placedImage base memory image) image.addressMap
  intro i e he hi
  rw [hmap] at he
  have hlt := (List.getElem?_eq_some_iff.mp he).1
  simp only [placedImage, List.nil_append] at hlt
  rw [AotCodeCachePlacement.isActive, hstates] at hi
  simp [placedImage, hlt] at hi

/-- In every run that respects retired code, every inactive entry is behind a trap or a jump to a
newer entry of its guest address. -/
theorem safeRun_closed {table : Table} (hpush : PushRows table) {p : AotCodeCachePlacement}
    (h : SafeRun table (RespectsRetired table) p) {i : ℕ} {e : AotAddressMapEntry}
    (he : p.addressMap[i]? = some e) (hi : p.isActive i = false) : Closed p i := by
  have hshut : RetiredShut p := by
    clear he hi
    induction h with
    | place hp => exact retiredShut_place hp.some.placed
    | step hrun hstep hrespects ih => exact ih.step hpush (hrun.reachable.laid hpush) hstep hrespects
  exact hshut.closed he hi

/-- The sample guest with its first page retired. -/
def samplePageRetired : AotCodeCachePlacement :=
  (retireAotGuestPage 0x1000 false true true samplePlacement).1

/-- Live descriptors: DS has a shadow word. -/
def sampleSegments : AotSegmentTable := ⟨fun seg => if seg = 3 then { shadowAddress := 0x5000 } else {}⟩

/-- The same behind a re-resolution with live descriptors. -/
def sampleReopened : AotCodeCachePlacement :=
  reResolveWin32AotSegmentOverrides sampleSegments {} true samplePageRetired

theorem safeRun_samplePageRetired {respects : AotCodeCachePlacement → Operation → Prop}
    (h : respects samplePlacement (.retire 0x1000 false true true)) :
    SafeRun sampleTable respects samplePageRetired :=
  .step (.place ⟨samplePlaces⟩) (apply_retire sampleTable samplePlacement 0x1000 false true true) h

theorem safeRun_sampleReopened : SafeRun sampleTable (fun _ _ => True) sampleReopened :=
  .step (safeRun_samplePageRetired trivial)
    (apply_reResolve sampleTable samplePageRetired sampleSegments {} true) trivial

attribute [irreducible] samplePageRetired sampleReopened

/-- The retired segment read is behind a trap. -/
theorem safeRun_closed_sample : samplePageRetired.isActive 0 = false ∧ Closed samplePageRetired 0 :=
  ⟨by decide +kernel,
    safeRun_closed pushRows_sampleTable (safeRun_samplePageRetired trivial) (e := ⟨0x1FFC, 0, 2, 12⟩)
      (by decide +kernel) (by decide +kernel)⟩

/-- Re-resolution puts the first byte of the retired slot back. -/
theorem reResolve_reopens :
    SafeRun sampleTable (fun _ _ => True) sampleReopened ∧
    sampleReopened.addressMap[0]? = some ⟨0x1FFC, 0, 2, 12⟩ ∧ sampleReopened.isActive 0 = false ∧
    sampleReopened.memory 0 = 0x66 ∧ ¬Closed sampleReopened 0 := by
  have hentry : sampleReopened.addressMap[0]? = some ⟨0x1FFC, 0, 2, 12⟩ := by decide +kernel
  have hbyte : sampleReopened.memory 0 = 0x66 := by decide +kernel
  refine ⟨safeRun_sampleReopened, hentry, by decide +kernel, hbyte, ?_⟩
  intro hclosed
  cases hclosed with
  | trap he hb =>
    rw [hentry] at he
    rw [← Option.some.inj he, hbyte] at hb
    exact absurd hb (by decide)
  | relinked he hb =>
    rw [hentry] at he
    rw [← Option.some.inj he, hbyte] at hb
    exact absurd hb (by decide)

end Repiu.Engine
