import Repiu.Engine.SegmentFolds

/-!
# Segment sites forget their history

Opening a segment site writes every byte that any patch of it may have written before, and writes
nothing that it read. So what a site looks like after a run of patches is up to the last one.
-/

namespace Repiu.Engine

open Repiu.Runtime Repiu.Memory Repiu.X86

/-! ## Sites -/

/-- A site that one of the four segment patchers patches. -/
inductive SegmentSite
  | override (site : AotSegmentOverrideSite)
  | guardedLoad (site : AotGuardedSegmentLoadSite)
  | guardedPop (site : AotGuardedSegmentPopSite)
  | guardedRead (site : AotGuardedSegmentReadSite)

/-- The segment sites of emitted code. -/
def segmentSites (code : Fragment) : List SegmentSite :=
  code.segmentOverrideSites.map .override ++ code.guardedSegmentLoadSites.map .guardedLoad ++
    code.guardedSegmentPopSites.map .guardedPop ++ code.guardedSegmentReadSites.map .guardedRead

/-- What a patch is made with: the segment table, and the counters of the guarded loads and pops. -/
structure SegmentPatch where
  table : AotSegmentTable
  loadCounters : CounterAddresses := {}
  popCounters : CounterAddresses := {}

namespace SegmentSite

/-- The recorded fields of a site. -/
def view : SegmentSite → PatchView
  | .override site => site.view
  | .guardedLoad site => site.view
  | .guardedPop site => site.view
  | .guardedRead site => site.view

/-- The patcher of a site, on that site. -/
def patch (base : ℕ) (p : SegmentPatch) (mem : Memory) : SegmentSite → Memory
  | .override site => patchAotSegmentOverrideSites base p.table [site] mem
  | .guardedLoad site => patchAotGuardedSegmentLoadSites base p.table p.loadCounters [site] mem
  | .guardedPop site => patchAotGuardedSegmentPopSites base p.table p.popCounters [site] mem
  | .guardedRead site => patchAotGuardedSegmentReadSites base p.table [site] mem

/-- Whether a patch opens a site. -/
def opens (p : SegmentPatch) : SegmentSite → Bool
  | .override site => overrideOpens p.table site
  | .guardedLoad site =>
    (guardedResolution p.table site.segmentRegister site.guardPrologue
      (p.loadCounters.ready site.hasCounterOperands)).isSome
  | .guardedPop site =>
    (guardedResolution p.table site.segmentRegister site.guardPrologue
      (p.popCounters.ready site.hasCounterOperands)).isSome
  | .guardedRead site => (guardedResolution p.table site.segmentRegister site.guardPrologue true).isSome

/-- A site patched time and again. -/
def patches (base : ℕ) (site : SegmentSite) (run : List SegmentPatch) (mem : Memory) : Memory :=
  run.foldl (fun mem p => site.patch base p mem) mem

/-- What the emitters guarantee of an override site; a guarded site without opening bytes is never opened. -/
def Emitted : SegmentSite → Prop
  | .override site => site.segmentRegister < 6 ∧ site.guardPrologue ≠ []
  | _ => True

end SegmentSite

/-! ## One patch -/

/-- Bytes written do not depend on what was there. -/
theorem setBytes_congr {m m' : Memory} {a x : ℕ} (bytes : List Byte)
    (h : ¬(a ≤ x ∧ x < a + bytes.length) → m x = m' x) : m.setBytes a bytes x = m'.setBytes a bytes x := by
  unfold Memory.setBytes
  by_cases hin : a ≤ x ∧ x < a + bytes.length
  · rw [if_pos hin, if_pos hin]
  · rw [if_neg hin, if_neg hin, h hin]

theorem set32_congr {m m' : Memory} {a x : ℕ} (w : Word) (h : ¬(a ≤ x ∧ x < a + 4) → m x = m' x) :
    m.set32 a w x = m'.set32 a w x :=
  setBytes_congr (le32 w) h

/-- A guarded site without opening bytes is never opened. -/
theorem prologue_of_guardedResolution {table : AotSegmentTable} {segment : ℕ} {prologue : List Byte} {ready : Bool}
    {r : AotSegmentResolution} (h : guardedResolution table segment prologue ready = some r) : prologue ≠ [] := by
  rintro hnil
  unfold guardedResolution at h
  split at h
  · cases h
  · rw [if_pos (Or.inr (Or.inl hnil))] at h
    cases h

/-- The fields of a guarded load or pop site, by the operands it has. -/
theorem covers_guardedOperands {base a : ℕ} {site : GuardedOperands} (hprologue : site.guardPrologue ≠ [])
    (h : Covers base site.view a) :
    (base + site.cacheOffset ≤ a ∧ a < base + site.cacheOffset + site.guardPrologue.length) ∨
    (base + site.shadowAddressOffset ≤ a ∧ a < base + site.shadowAddressOffset + 4) ∨
    (site.pair0AddressOffset ≠ 0 ∧
      ((base + site.pair0AddressOffset ≤ a ∧ a < base + site.pair0AddressOffset + 4) ∨
        (base + site.pair1AddressOffset ≤ a ∧ a < base + site.pair1AddressOffset + 4) ∨
        (base + site.shadowStoreOffset ≤ a ∧ a < base + site.shadowStoreOffset + 4))) ∨
    (site.hasCounterOperands = true ∧
      ((base + site.successCounterAddressOffset ≤ a ∧ a < base + site.successCounterAddressOffset + 4) ∨
        (base + site.fallbackCounterAddressOffset ≤ a ∧ a < base + site.fallbackCounterAddressOffset + 4))) := by
  have hlength := List.length_pos_of_ne_nil hprologue
  rcases h with hstart | hopening | ⟨w, hw, hlow, hhigh⟩
  · left
    change a = base + site.cacheOffset at hstart
    omega
  · exact Or.inl hopening
  · simp only [GuardedOperands.view, guardedWindows, List.mem_append, List.mem_singleton] at hw
    rcases hw with (rfl | hpair) | hcounter
    · exact Or.inr (Or.inl ⟨hlow, hhigh⟩)
    · split_ifs at hpair with hpaired
      · right; right; left
        simp only [List.mem_cons, List.not_mem_nil, or_false] at hpair
        rcases hpair with rfl | rfl | rfl
        · exact ⟨hpaired, Or.inl ⟨hlow, hhigh⟩⟩
        · exact ⟨hpaired, Or.inr (Or.inl ⟨hlow, hhigh⟩)⟩
        · exact ⟨hpaired, Or.inr (Or.inr ⟨hlow, hhigh⟩)⟩
      · cases hpair
    · split_ifs at hcounter with hcounters
      · right; right; right
        simp only [List.mem_cons, List.not_mem_nil, or_false] at hcounter
        rcases hcounter with rfl | rfl
        · exact ⟨hcounters, Or.inl ⟨hlow, hhigh⟩⟩
        · exact ⟨hcounters, Or.inr ⟨hlow, hhigh⟩⟩
      · cases hcounter

section
variable (base : ℕ) {m m' : Memory}

/-- Opening a guarded load or pop site writes all of its fields. -/
theorem patchGuardedOperands_determined {table : AotSegmentTable} {counters : CounterAddresses}
    {site : GuardedOperands} (hopens : (guardedResolution table site.segmentRegister site.guardPrologue
      (counters.ready site.hasCounterOperands)).isSome)
    (h : ∀ a, ¬Covers base site.view a → m a = m' a) :
    patchGuardedOperands base table counters m site = patchGuardedOperands base table counters m' site := by
  obtain ⟨r, hr⟩ := Option.isSome_iff_exists.mp hopens
  have hprologue := prologue_of_guardedResolution hr
  funext a
  unfold patchGuardedOperands
  rw [hr]
  dsimp only
  -- each write takes its bytes out of those that may differ, and nothing outside the fields differed
  split_ifs with hcounters hpair hpair
  all_goals
    repeat (apply set32_congr; intro)
    apply setBytes_congr
    intro
    apply h
    intro hcovers
    rcases covers_guardedOperands hprologue hcovers with hin | hin | ⟨hpaired, hin⟩ | ⟨hcounted, hin⟩
    · omega
    · omega
    · omega
    · first | omega | exact hcounters hcounted

theorem patchSegmentOverrideSite_determined {table : AotSegmentTable} {site : AotSegmentOverrideSite}
    (hprologue : site.guardPrologue ≠ []) (hopens : overrideOpens table site = true)
    (h : ∀ a, ¬Covers base site.view a → m a = m' a) :
    patchSegmentOverrideSite base table m site = patchSegmentOverrideSite base table m' site := by
  have hlength := List.length_pos_of_ne_nil hprologue
  funext a
  unfold overrideOpens at hopens
  unfold patchSegmentOverrideSite
  cases hfind : table.find site.segmentRegister with
  | none =>
    rw [hfind] at hopens
    cases hopens
  | some r =>
    rw [hfind] at hopens
    dsimp only at hopens ⊢
    rw [Bool.and_eq_true, decide_eq_true_iff, decide_eq_true_iff] at hopens
    have hopen : ¬(r.shadowAddress = 0 ∨ r.policy ≠ .kNativeFolded) := by
      rintro (hzero | hpolicy)
      · exact hopens.1 hzero
      · exact hpolicy hopens.2
    rw [if_neg hopen, if_neg hopen]
    apply set32_congr
    intro hdisplacement
    apply setBytes_congr
    intro hselector
    apply set32_congr
    intro haddress
    apply setBytes_congr
    intro hopening
    apply h
    rw [le16_length] at hselector
    rintro (hstart | hinside | ⟨w, hw, hlow, hhigh⟩)
    · change a = base + site.cacheOffset at hstart
      omega
    · exact hopening hinside
    · simp only [AotSegmentOverrideSite.view, List.mem_cons, List.not_mem_nil, or_false] at hw
      rcases hw with rfl | rfl | rfl
      · exact haddress ⟨hlow, hhigh⟩
      · exact hselector ⟨hlow, hhigh⟩
      · exact hdisplacement ⟨hlow, hhigh⟩

theorem patchGuardedReadSite_determined {table : AotSegmentTable} {site : AotGuardedSegmentReadSite}
    (hopens : (guardedResolution table site.segmentRegister site.guardPrologue true).isSome)
    (h : ∀ a, ¬Covers base site.view a → m a = m' a) :
    patchGuardedReadSite base table m site = patchGuardedReadSite base table m' site := by
  obtain ⟨r, hr⟩ := Option.isSome_iff_exists.mp hopens
  have hlength := List.length_pos_of_ne_nil (prologue_of_guardedResolution hr)
  funext a
  unfold patchGuardedReadSite
  rw [hr]
  dsimp only
  apply set32_congr
  intro hload
  apply set32_congr
  intro hshadow
  apply setBytes_congr
  intro hopening
  apply h
  rintro (hstart | hinside | ⟨w, hw, hlow, hhigh⟩)
  · change a = base + site.cacheOffset at hstart
    omega
  · exact hopening hinside
  · simp only [AotGuardedSegmentReadSite.view, List.mem_cons, List.not_mem_nil, or_false] at hw
    rcases hw with rfl | rfl
    · exact hshadow ⟨hlow, hhigh⟩
    · exact hload ⟨hlow, hhigh⟩

end

namespace SegmentSite

variable (base : ℕ) {p : SegmentPatch} {site : SegmentSite} {m m' : Memory}

/-- An opened site depends only on what lies outside its fields. -/
theorem patch_determined (hsite : site.Emitted) (hopens : site.opens p = true)
    (h : ∀ a, ¬Covers base site.view a → m a = m' a) : site.patch base p m = site.patch base p m' := by
  cases site with
  | override site => exact patchSegmentOverrideSite_determined base hsite.2 hopens h
  | guardedLoad site => exact @patchGuardedOperands_determined base _ _ _ _ (loadOperands site) hopens h
  | guardedPop site => exact @patchGuardedOperands_determined base _ _ _ _ (popOperands site) hopens h
  | guardedRead site => exact patchGuardedReadSite_determined base hopens h

/-- A site that is not opened is closed: its first byte traps. -/
theorem patch_closed (hsite : site.Emitted) (hcloses : site.opens p = false) :
    site.patch base p m = m.set (base + site.view.start) 0xCC := by
  cases site with
  | override site =>
    show patchSegmentOverrideSite base p.table m site = _
    have hopens : overrideOpens p.table site = false := hcloses
    unfold overrideOpens at hopens
    unfold patchSegmentOverrideSite
    cases hfind : p.table.find site.segmentRegister with
    | none =>
      unfold AotSegmentTable.find at hfind
      rw [dif_pos hsite.1] at hfind
      cases hfind
    | some r =>
      rw [hfind] at hopens
      dsimp only at hopens ⊢
      rw [if_pos]
      · rfl
      · by_contra hopen
        rw [not_or, not_not] at hopen
        rw [Bool.and_eq_false_iff, decide_eq_false_iff_not, decide_eq_false_iff_not, not_not] at hopens
        exact hopens.elim hopen.1 (fun hpolicy => hpolicy hopen.2)
  | guardedLoad site =>
    show patchGuardedOperands base p.table p.loadCounters m (loadOperands site) = _
    have hnone := Option.not_isSome_iff_eq_none.mp (Bool.not_eq_true _ ▸ hcloses)
    unfold patchGuardedOperands
    rw [show guardedResolution p.table (loadOperands site).segmentRegister (loadOperands site).guardPrologue
      (p.loadCounters.ready (loadOperands site).hasCounterOperands) = none from hnone]
    rfl
  | guardedPop site =>
    show patchGuardedOperands base p.table p.popCounters m (popOperands site) = _
    have hnone := Option.not_isSome_iff_eq_none.mp (Bool.not_eq_true _ ▸ hcloses)
    unfold patchGuardedOperands
    rw [show guardedResolution p.table (popOperands site).segmentRegister (popOperands site).guardPrologue
      (p.popCounters.ready (popOperands site).hasCounterOperands) = none from hnone]
    rfl
  | guardedRead site =>
    show patchGuardedReadSite base p.table m site = _
    have hnone := Option.not_isSome_iff_eq_none.mp (Bool.not_eq_true _ ▸ hcloses)
    unfold patchGuardedReadSite
    rw [hnone]
    rfl

/-- A patch stays in the fields of its site. -/
theorem patch_frame (p : SegmentPatch) (m : Memory) {a : ℕ} (ha : ¬Covers base site.view a) :
    site.patch base p m a = m a := by
  have hframe : ∀ {m' : Memory} {opened : ℕ → Bool}, Resolves base [] [site.view] opened m m' → m' a = m a := by
    intro m' opened hresolves
    rcases hresolves a (by simp) (fun v hv hcovers => absurd (List.mem_singleton.mp hv ▸ hcovers) ha) with
      hsame | ⟨-, v, hv, hstart⟩
    · exact hsame
    · rw [List.mem_singleton.mp hv] at hstart
      exact absurd (Or.inl hstart) ha
  cases site with
  | override site => exact hframe (resolves_patchSegmentOverrideSite base p.table m site)
  | guardedLoad site => exact hframe (resolves_patchGuardedOperands base p.table p.loadCounters m (loadOperands site))
  | guardedPop site => exact hframe (resolves_patchGuardedOperands base p.table p.popCounters m (popOperands site))
  | guardedRead site => exact hframe (resolves_patchGuardedReadSite base p.table m site)

theorem patches_frame (run : List SegmentPatch) (m : Memory) {a : ℕ} (ha : ¬Covers base site.view a) :
    site.patches base run m a = m a := by
  induction run generalizing m with
  | nil => rfl
  | cons p run ih => exact (ih (site.patch base p m)).trans (patch_frame base p m ha)

/-- What was patched before an opening patch does not show. -/
theorem patches_opens (hsite : site.Emitted) (hopens : site.opens p = true) (run : List SegmentPatch) (m : Memory) :
    site.patches base (run ++ [p]) m = site.patch base p m := by
  unfold patches
  rw [List.foldl_append]
  apply patch_determined base hsite hopens
  intro a ha
  exact patches_frame base run m ha

end SegmentSite

theorem emitted_of_image {input : BuildInput} {plan : AotTranslationPlan} {image : AotCodeCacheImage}
    (h : buildAotCodeCacheImage input plan = some image) {site : SegmentSite}
    (hsite : site ∈ segmentSites image.code) : site.Emitted := by
  cases site with
  | override s =>
    apply prologuesKept_of_image h s
    simpa [segmentSites] using hsite
  | guardedLoad s => trivial
  | guardedPop s => trivial
  | guardedRead s => trivial

/-- A segment site of an image, patched by any run of tables. A run that ends in an opening patch leaves what
that patch alone leaves of the emitted site; a patch that does not open the site puts a trap on its first
byte and changes nothing else; and no run writes outside the recorded fields. -/
theorem segmentSite_history_independent {input : BuildInput} {plan : AotTranslationPlan} {image : AotCodeCacheImage}
    (h : buildAotCodeCacheImage input plan = some image) {site : SegmentSite}
    (hsite : site ∈ segmentSites image.code) (base : ℕ) (m : Memory) :
    (∀ p, site.opens p = true → ∀ run run' : List SegmentPatch,
      site.patches base (run ++ [p]) m = site.patches base (run' ++ [p]) m ∧
      site.patches base (run ++ [p]) m = site.patch base p m) ∧
    (∀ p, site.opens p = false → site.patch base p m = m.set (base + site.view.start) 0xCC) ∧
    ∀ run a, ¬Covers base site.view a → site.patches base run m a = m a := by
  have hemitted := emitted_of_image h hsite
  refine ⟨?_, ?_, ?_⟩
  · intro p hopens run run'
    have hrun := SegmentSite.patches_opens base hemitted hopens run m
    have hrun' := SegmentSite.patches_opens base hemitted hopens run' m
    exact ⟨hrun.trans hrun'.symm, hrun⟩
  · intro p hcloses
    exact SegmentSite.patch_closed base hemitted hcloses
  · intro run a ha
    exact SegmentSite.patches_frame base run m ha

/-- A patch that folds every segment, and one that knows of none. -/
def foldAll : SegmentPatch :=
  { table := ⟨fun _ => { shadowAddress := 0x9000, selector := 0x2B, base := 0x70000, policy := .kNativeFolded }⟩ }

def foldNone : SegmentPatch := { table := .empty }

/-- The access through ES, opened, closed and opened again. -/
theorem segmentSite_history_independent_access :
    ∃ site ∈ segmentSites accessImage.code, site.opens foldAll = true ∧ site.opens foldNone = false ∧
      ∀ m, site.patches 0 [foldAll, foldNone, foldAll] m = site.patch 0 foldAll m := by
  have hsite : ∃ site ∈ segmentSites accessImage.code, site.opens foldAll = true ∧ site.opens foldNone = false := by
    have hany : ((segmentSites accessImage.code).any fun site =>
        site.opens foldAll && !site.opens foldNone) = true := by
      decide +kernel
    obtain ⟨site, hmem, hboth⟩ := List.any_eq_true.mp hany
    rw [Bool.and_eq_true, Bool.not_eq_true'] at hboth
    exact ⟨site, hmem, hboth⟩
  obtain ⟨site, hmem, hopens, hcloses⟩ := hsite
  refine ⟨site, hmem, hopens, hcloses, ?_⟩
  intro m
  exact ((segmentSite_history_independent accessPlaces.built hmem 0 m).1 foldAll hopens [foldAll, foldNone] []).2

end Repiu.Engine
