import Repiu.Engine.RetiredPages
import Repiu.Engine.WriteWatches

/-!
# Releasing watches after a write

`ReleaseUnneededAotGuestPageWatches` (`aot_runtime_dispatch.cpp`) goes through the pages of a
completed guest write and gives up the watch of each page that has no more use for it.  Its
loop compares a 32-bit page address with the last page, so a range that ends in the last page
of the address space never leaves it.
-/

namespace Repiu.Engine

open Repiu.Runtime KeyedList

/-! ## The loop -/

/-- `GuestWriteTracePageMatches`, on the address that is traced. -/
def guestWriteTracePageMatches (watched guestAddress : Word) : Bool :=
  watched ≠ 0 ∧ aotGuestPage guestAddress = aotGuestPage watched

/-- What the watch of a page is decided by: the calls that succeed, the placed cache and the
address that is traced. -/
structure ReleaseContext where
  protects : HostProtects
  placement : AotCodeCachePlacement
  traced : Word

/-- The body of the page loop. -/
def releasePage (context : ReleaseContext) (page : Word) (s : WatchState) : WatchState :=
  if aotGuestRangeHasActiveTranslation context.placement page 0x1000 ∨
      isAotGuestPageRetired context.placement page ∨ isAotGuestPageQuarantined context.placement page then s
  else if guestWriteTracePageMatches context.traced page then s
  else removeAotPageWriteWatch context.protects s page

/-- The page loop, with the pages it has visited; `none` where it has not ended within the fuel. -/
def releasePages (context : ReleaseContext) (lastPage : Word) : ℕ → Word → WatchState → Option (List Word × WatchState)
  | 0, _, _ => none
  | fuel + 1, page, s =>
    if page ≤ lastPage then
      (releasePages context lastPage fuel (page + 0x1000) (releasePage context page s)).map fun result =>
        (page :: result.1, result.2)
    else some ([], s)

/-- The last page the loop compares with; the end of the range is a sum of 64 bits. -/
def releaseLastPage (address size : Word) : Word :=
  aotGuestPage ((address.setWidth 64 + size.setWidth 64 - 1).setWidth 32)

/-- `ReleaseUnneededAotGuestPageWatches`. -/
def releaseUnneededAotGuestPageWatches (context : ReleaseContext) (fuel : ℕ) (address size : Word) (s : WatchState) :
    Option (List Word × WatchState) :=
  releasePages context (releaseLastPage address size) fuel (aotGuestPage address) s

/-- The loop ends, and has visited each page of the range once and no other. -/
def ReleasesEachPage (context : ReleaseContext) (address size : Word) (s : WatchState) : Prop :=
  ∃ fuel pages s', releaseUnneededAotGuestPageWatches context fuel address size s = some (pages, s') ∧
    pages.Nodup ∧
    ∀ page : Word, page ∈ pages ↔ ∃ b, address.toNat ≤ b ∧ b < address.toNat + size.toNat ∧
      page.toNat = b / kGuestPageSize * kGuestPageSize

/-- The ranges a completed write is reported with, over every order of operations on the watches. -/
def CallersPass (address size : Word) : Prop :=
  ∃ h protects completion, WatchRun (fun _ _ _ => True) h ∧
    (completeAotGuestWrite protects h.state).1 = some completion ∧
    completion.destination = address ∧ completion.byteCount = size

/-! ## Ranges that are reported -/

/-- The pending range lies in the address space, and counts as empty only where it is all of it. -/
structure PendingInSpace (set : AotPageWriteWatchSet) : Prop where
  inSpace : set.pendingEnd ≤ 2 ^ 32
  whole : set.pendingByteCount = 0 → set.pendingDestination = 0

theorem PendingInSpace.congr {set set' : AotPageWriteWatchSet} (h : PendingInSpace set)
    (hdestination : set'.pendingDestination = set.pendingDestination)
    (hcount : set'.pendingByteCount = set.pendingByteCount) : PendingInSpace set' := by
  constructor
  · rw [AotPageWriteWatchSet.pendingEnd, hdestination, hcount]
    exact h.inSpace
  · rw [hdestination, hcount]
    exact h.whole

theorem pendingInSpace_resetPendingWrite (set : AotPageWriteWatchSet) : PendingInSpace (resetPendingWrite set) :=
  ⟨show 0 ≤ 2 ^ 32 by decide, fun _ => rfl⟩

theorem PendingInSpace.joinPendingWrite {set : AotPageWriteWatchSet} (h : PendingInSpace set) {rangeBegin : Word}
    {rangeEnd : ℕ} (hbegin : rangeBegin.toNat < rangeEnd) (hend : rangeEnd ≤ 2 ^ 32)
    (fromGuest keepSingleStep : Bool) (guestSource : Word) :
    PendingInSpace (joinPendingWrite rangeBegin rangeEnd fromGuest keepSingleStep guestSource set) := by
  -- a count of 32 bits is below the size it is cut from, and zero only where that is all of the space
  have hcut : ∀ (first : Word) (last : ℕ), first.toNat < last → last ≤ 2 ^ 32 →
      first.toNat + (BitVec.ofNat 32 (last - first.toNat)).toNat ≤ 2 ^ 32 ∧
        (BitVec.ofNat 32 (last - first.toNat) = 0 → first = 0) := by
    intro first last hlt hle
    rw [BitVec.toNat_ofNat]
    have hmod := Nat.mod_le (last - first.toNat) (2 ^ 32)
    refine ⟨by omega, ?_⟩
    intro hzero
    have hnat := congrArg BitVec.toNat hzero
    rw [BitVec.toNat_ofNat] at hnat
    apply BitVec.eq_of_toNat_eq
    show first.toNat = 0
    change (last - first.toNat) % 2 ^ 32 = 0 at hnat
    omega
  unfold Engine.joinPendingWrite
  by_cases hpending : set.pending = true
  · rw [if_pos hpending]
    dsimp only
    have hcombined : (if rangeBegin < set.pendingDestination then rangeBegin else set.pendingDestination).toNat <
        max set.pendingEnd rangeEnd := by
      split_ifs with hlt
      · exact lt_max_of_lt_right hbegin
      · rw [BitVec.lt_def, not_lt] at hlt
        exact lt_max_of_lt_right (by omega)
    obtain ⟨hspace, hwhole⟩ := hcut _ _ hcombined (max_le h.inSpace hend)
    exact ⟨hspace, hwhole⟩
  · rw [if_neg hpending]
    obtain ⟨hspace, hwhole⟩ := hcut rangeBegin rangeEnd hbegin hend
    exact ⟨hspace, hwhole⟩

section
variable {protects : HostProtects}

theorem ensureWriteWatch_pendingInSpace {s : WatchState} (address : Word) (h : PendingInSpace s.set) :
    PendingInSpace (ensureWriteWatch protects s address).2.set := by
  unfold ensureWriteWatch
  dsimp only
  by_cases hwatched : (findWriteWatch s.set (aotGuestPage address)).isSome
  · rw [if_pos hwatched]
    exact h
  · rw [if_neg hwatched]
    cases s.memory (aotGuestPage address) with
    | none => exact h
    | some original =>
      dsimp only
      split_ifs
      · exact h.congr rfl rfl
      · exact h.congr rfl rfl
      · exact h

theorem ensureWriteWatches_pendingInSpace {s : WatchState} (pages : List Word) (h : PendingInSpace s.set) :
    PendingInSpace (ensureWriteWatches protects pages s).2.set := by
  induction pages generalizing s with
  | nil => exact h
  | cons page pages ih =>
    have hstep := @ensureWriteWatch_pendingInSpace protects _ page h
    rw [ensureWriteWatches]
    generalize ensureWriteWatch protects s page = result at hstep ⊢
    obtain ⟨ok, s'⟩ := result
    cases ok with
    | true => exact ih hstep
    | false => exact hstep

theorem beginAotGuestWrite_pendingInSpace {s : WatchState} (h : PendingInSpace s.set) (decoded : DecodedGuestWrite)
    (faultAddress : Word) (fromGuest keepSingleStep : Bool) (guestSource : Word) :
    PendingInSpace (beginAotGuestWrite protects decoded faultAddress fromGuest keepSingleStep guestSource s).2.set := by
  rcases @beginAotGuestWrite_cases protects decoded faultAddress fromGuest keepSingleStep guestSource s with
    hsame | ⟨-, hend, admitted, -, hresult | ⟨-, hresult⟩⟩
  · rw [hsame]
    exact h
  · rw [hresult, foldl_admitPage_set]
    have hjoined := h.joinPendingWrite (decoded.rangeBegin_lt_rangeEnd faultAddress) hend
      fromGuest keepSingleStep guestSource
    exact hjoined.congr rfl rfl
  · rw [hresult]
    exact pendingInSpace_resetPendingWrite _

theorem PendingInSpace.apply {s : WatchState} (h : PendingInSpace s.set) (call : WatchCall) :
    PendingInSpace (call.apply protects s).set := by
  cases call with
  | install placement selectedPages =>
    cases selectedPages with
    | none => exact ensureWriteWatches_pendingInSpace _ h
    | some pages => exact ensureWriteWatches_pendingInSpace pages h
  | remove address =>
    show PendingInSpace (removeAotPageWriteWatch protects s address).set
    unfold removeAotPageWriteWatch
    dsimp only
    cases findWriteWatch s.set (aotGuestPage address) with
    | none => exact h
    | some watch => exact h.congr rfl rfl
  | restoreAll => exact h.congr rfl rfl
  | begin decoded faultAddress fromGuest keepSingleStep guestSource =>
    exact beginAotGuestWrite_pendingInSpace h decoded faultAddress fromGuest keepSingleStep guestSource
  | complete =>
    show PendingInSpace (completeAotGuestWrite protects s).2.set
    rcases @completeAotGuestWrite_cases protects s with heq | heq | ⟨-, -, heq⟩
    · rw [heq]
      exact h
    · rw [heq]
      exact h
    · rw [heq]
      exact pendingInSpace_resetPendingWrite _

end

theorem WatchRun.pendingInSpace {h : WatchHistory} (hrun : WatchRun (fun _ _ _ => True) h) :
    PendingInSpace h.state.set := by
  induction hrun with
  | start memory => exact pendingInSpace_resetPendingWrite {}
  | step protects call _ _ ih => exact ih.apply call

/-- Callers pass ranges that lie in the address space; a length of zero comes with the start zero. -/
theorem CallersPass.inSpace {address size : Word} (h : CallersPass address size) :
    address.toNat + size.toNat ≤ 2 ^ 32 ∧ (size = 0 → address = 0) := by
  obtain ⟨history, protects, completion, hrun, hcomplete, rfl, rfl⟩ := h
  have hspace := hrun.pendingInSpace
  rcases @completeAotGuestWrite_cases protects history.state with heq | heq | ⟨-, -, heq⟩
  · rw [heq] at hcomplete
    cases hcomplete
  · rw [heq] at hcomplete
    cases hcomplete
  · rw [heq] at hcomplete
    cases hcomplete
    exact ⟨hspace.inSpace, hspace.whole⟩

/-! ## Runs of the loop -/

section
variable {context : ReleaseContext}

/-- No page lies behind the last page of the address space. -/
theorem releasePages_last (fuel : ℕ) {page : Word} (haligned : page.toNat % kGuestPageSize = 0) (s : WatchState) :
    releasePages context 0xFFFFF000 fuel page s = none := by
  induction fuel generalizing page s with
  | zero => rfl
  | succ fuel ih =>
    have hlt := page.isLt
    have hle : page ≤ (0xFFFFF000 : Word) := by
      rw [BitVec.le_def]
      show page.toNat ≤ 0xFFFFF000
      rw [kGuestPageSize] at haligned
      omega
    have hnext : (page + 0x1000).toNat % kGuestPageSize = 0 := by
      rw [BitVec.toNat_add]
      show (page.toNat + 4096) % 2 ^ 32 % 4096 = 0
      rw [kGuestPageSize] at haligned
      omega
    rw [releasePages, if_pos hle, ih hnext]
    rfl

/-- Below it, the loop goes through the pages up to the last one. -/
theorem releasePages_eq (count : ℕ) {page lastPage : Word}
    (hcount : page.toNat + count * kGuestPageSize = lastPage.toNat)
    (hlast : lastPage.toNat + kGuestPageSize < 2 ^ 32) (s : WatchState) :
    ∃ s', releasePages context lastPage (count + 2) page s =
      some ((List.range (count + 1)).map fun k => BitVec.ofNat 32 (page.toNat + k * kGuestPageSize), s') := by
  have hnext {page : Word} (hlt : page.toNat + kGuestPageSize < 2 ^ 32) :
      (page + 0x1000).toNat = page.toNat + kGuestPageSize := by
    rw [BitVec.toNat_add]
    show (page.toNat + 4096) % 2 ^ 32 = _
    rw [kGuestPageSize] at hlt ⊢
    omega
  induction count generalizing page s with
  | zero =>
    have hle : page ≤ lastPage := by
      rw [BitVec.le_def]
      omega
    have hpast : ¬page + 0x1000 ≤ lastPage := by
      rw [BitVec.le_def, hnext (by omega), kGuestPageSize]
      omega
    refine ⟨releasePage context page s, ?_⟩
    rw [releasePages, if_pos hle, releasePages, if_neg hpast]
    simp
  | succ count ih =>
    rw [kGuestPageSize] at hcount
    have hle : page ≤ lastPage := by
      rw [BitVec.le_def]
      omega
    have hstep : (page + 0x1000).toNat = page.toNat + kGuestPageSize := by
      apply hnext
      rw [kGuestPageSize] at hlast ⊢
      omega
    obtain ⟨s', hs'⟩ := ih (by rw [hstep, kGuestPageSize]; omega) (releasePage context page s)
    refine ⟨s', ?_⟩
    rw [releasePages, if_pos hle, hs', Option.map_some, Option.some.injEq, Prod.mk.injEq]
    refine ⟨?_, rfl⟩
    rw [List.range_succ_eq_map (n := count + 1), List.map_cons, List.map_map, hstep, List.cons.injEq]
    refine ⟨by simp, ?_⟩
    apply List.map_congr_left
    intro k _
    show BitVec.ofNat 32 (page.toNat + kGuestPageSize + k * kGuestPageSize) =
      BitVec.ofNat 32 (page.toNat + (k + 1) * kGuestPageSize)
    rw [Nat.succ_mul, Nat.add_assoc, Nat.add_comm kGuestPageSize]

end

theorem toNat_releaseLastPage {address size : Word} (hpos : 0 < address.toNat + size.toNat)
    (hspace : address.toNat + size.toNat ≤ 2 ^ 32) : (releaseLastPage address size).toNat =
      (address.toNat + size.toNat - 1) / kGuestPageSize * kGuestPageSize := by
  rw [releaseLastPage, toNat_aotGuestPage]
  congr 2
  rw [BitVec.toNat_setWidth, BitVec.toNat_sub, BitVec.toNat_add, BitVec.toNat_setWidth, BitVec.toNat_setWidth]
  show (2 ^ 64 - 1 + (address.toNat % 2 ^ 64 + size.toNat % 2 ^ 64) % 2 ^ 64) % 2 ^ 64 % 2 ^ 32 = _
  have haddress := address.isLt
  have hsize := size.isLt
  omega

/-- The pages of a range that ends below the last page are visited in order. -/
theorem releaseUnneeded_eq {context : ReleaseContext} {address size : Word} (hpos : 0 < size.toNat)
    (hbelow : address.toNat + size.toNat ≤ 0xFFFFF000) (s : WatchState) :
    ∃ fuel s', releaseUnneededAotGuestPageWatches context fuel address size s =
      some (spannedPages address (address.toNat + size.toNat - 1), s') := by
  have hlast : (releaseLastPage address size).toNat =
      (address.toNat + size.toNat - 1) / kGuestPageSize * kGuestPageSize :=
    toNat_releaseLastPage (by omega) (by omega)
  have hfirst := toNat_aotGuestPage address
  obtain ⟨count, hcount⟩ : ∃ count, count =
      (address.toNat + size.toNat - 1 - (aotGuestPage address).toNat) / kGuestPageSize := ⟨_, rfl⟩
  have hreach : (aotGuestPage address).toNat + count * kGuestPageSize = (releaseLastPage address size).toNat := by
    rw [hlast, hcount, hfirst, kGuestPageSize]
    omega
  have hend : (releaseLastPage address size).toNat + kGuestPageSize < 2 ^ 32 := by
    rw [hlast, kGuestPageSize]
    omega
  obtain ⟨s', hs'⟩ := @releasePages_eq context count _ _ hreach hend s
  refine ⟨count + 2, s', ?_⟩
  rw [releaseUnneededAotGuestPageWatches, hs', spannedPages, hcount]

theorem nodup_spannedPages {address : Word} {last : ℕ} (hlast : last < 2 ^ 32) :
    (spannedPages address last).Nodup := by
  have hfirst := toNat_aotGuestPage address
  unfold spannedPages
  refine List.Nodup.map_on ?_ List.nodup_range
  intro i hi j hj hsame
  rw [List.mem_range] at hi hj
  have hnat := congrArg BitVec.toNat hsame
  rw [BitVec.toNat_ofNat, BitVec.toNat_ofNat, hfirst] at hnat
  rw [hfirst] at hi hj
  rw [kGuestPageSize] at hi hj hnat
  omega

/-! ## When it ends -/

/-- Of the ranges that callers pass, those that end below the last page of the address space have
each of their pages visited once, and no other range ever leaves the loop. -/
theorem releasesEachPage_iff (context : ReleaseContext) {address size : Word} (hpass : CallersPass address size)
    (s : WatchState) :
    ReleasesEachPage context address size s ↔
      0 < size.toNat ∧ address.toNat + size.toNat ≤ 0xFFFFF000 := by
  obtain ⟨hspace, hwhole⟩ := hpass.inSpace
  constructor
  · rintro ⟨fuel, pages, s', hrun, -, -⟩
    by_contra hnot
    have hlast : releaseLastPage address size = 0xFFFFF000 := by
      by_cases hzero : size = 0
      · rw [hzero, hwhole hzero]
        decide
      · have hpos : 0 < size.toNat := by
          apply Nat.pos_of_ne_zero
          exact fun hnat => hzero (BitVec.eq_of_toNat_eq hnat)
        apply BitVec.eq_of_toNat_eq
        rw [toNat_releaseLastPage (by omega) hspace, kGuestPageSize]
        show _ = 0xFFFFF000
        omega
    have haligned : (aotGuestPage address).toNat % kGuestPageSize = 0 := by
      rw [toNat_aotGuestPage, Nat.mul_mod_left]
    rw [releaseUnneededAotGuestPageWatches, hlast, releasePages_last fuel haligned] at hrun
    cases hrun
  · rintro ⟨hpos, hbelow⟩
    obtain ⟨fuel, s', hrun⟩ := @releaseUnneeded_eq context _ _ hpos hbelow s
    refine ⟨fuel, _, s', hrun, nodup_spannedPages (by omega), ?_⟩
    intro page
    rw [mem_spannedPages (by omega) (by omega)]
    have hle (b : ℕ) : b ≤ address.toNat + size.toNat - 1 ↔ b < address.toNat + size.toNat := by omega
    simp only [hle]

/-- A host whose calls succeed, an empty cache, and no traced address. -/
def idleContext : ReleaseContext := ⟨hostAllows, { memory := fun _ => 0 }, 0⟩

theorem releasesEachPage_two_pages :
    CallersPass 0x401FFE 4 ∧ ReleasesEachPage idleContext 0x401FFE 4 pendingPage.state := by
  have hpass : CallersPass 0x401FFE 4 := by
    refine ⟨pendingPage, hostAllows, _, ?_, rfl, by decide +kernel, by decide +kernel⟩
    exact .step _ _ (.step _ _ (.start _) trivial) trivial
  exact ⟨hpass, (releasesEachPage_iff idleContext hpass _).mpr ⟨by decide, by decide⟩⟩

/-- The last page of the address space, watched, with a write to its last four bytes begun. -/
def lastPageWritten : WatchHistory :=
  let memory : Word → Option MemoryProtection :=
    fun page => if page = 0xFFFFF000 then some .executeReadWrite else none
  WatchHistory.step hostAllows (.begin ⟨4, false, four_pos⟩ 0xFFFFFFFC true false 0x402000)
    (WatchHistory.step hostAllows (.install { memory := fun _ => 0 } (some [0xFFFFF000]))
      { state := { memory := memory }, unwatched := memory })

/-- Callers pass the last four bytes of the address space, and the loop does not end there. -/
theorem releaseUnneeded_stays_on_last_page :
    CallersPass 0xFFFFFFFC 4 ∧ (∀ fuel, releaseUnneededAotGuestPageWatches idleContext fuel 0xFFFFFFFC 4
      lastPageWritten.state = none) ∧ ¬ReleasesEachPage idleContext 0xFFFFFFFC 4 lastPageWritten.state := by
  have hpass : CallersPass 0xFFFFFFFC 4 := by
    refine ⟨lastPageWritten, hostAllows, _, ?_, rfl, by decide +kernel, by decide +kernel⟩
    exact .step _ _ (.step _ _ (.start _) trivial) trivial
  have hnone : ∀ fuel, releaseUnneededAotGuestPageWatches idleContext fuel 0xFFFFFFFC 4 lastPageWritten.state = none :=
    fun fuel => releasePages_last fuel (by decide) _
  refine ⟨hpass, hnone, ?_⟩
  rintro ⟨fuel, pages, s', hrun, -⟩
  rw [hnone] at hrun
  cases hrun

end Repiu.Engine
