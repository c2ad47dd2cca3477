import Repiu.Engine.PageCoherence

/-!
# Write watches

The watched guest pages of a thread (`aot_page_coherence.cpp`): pages with translated
code are kept read-only-executable, a faulting write makes the pages of its range
writable for one instruction, and completing the write protects them again.

The outcome of each `ProtectMemory` call is an input: no operation asks twice for the
same protection of the same page, so it is a function of the two.
-/

namespace Repiu.Engine

open Repiu.Runtime KeyedList

/-- `MemoryProtection`. -/
inductive MemoryProtection
  | noAccess | readOnly | readWrite | executeRead | executeReadWrite | other
  deriving DecidableEq, Repr

/-- `AotGuestPageWriteWatch`. -/
structure AotGuestPageWriteWatch where
  guestPage : Word
  originalProtection : MemoryProtection
  deriving DecidableEq, Repr

/-- `AotGuestWriteCompletion`. -/
structure AotGuestWriteCompletion where
  fromGuest : Bool
  keepSingleStep : Bool
  source : Word
  destination : Word
  byteCount : Word
  deriving DecidableEq, Repr

/-- `AotPageWriteWatchSet`; `pendingPages` is the used part of the array. -/
structure AotPageWriteWatchSet where
  watches : List AotGuestPageWriteWatch := []
  pending : Bool := false
  pendingFromGuest : Bool := false
  pendingKeepSingleStep : Bool := false
  pendingPages : List Word := []
  pendingSource : Word := 0
  pendingDestination : Word := 0
  pendingByteCount : Word := 0

/-- `AotPageWriteWatchSet::kPendingPageCapacity`. -/
def kPendingPageCapacity : ℕ := 16

/-- `DecodedGuestWrite`: the byte count starts at one and only grows. -/
structure DecodedGuestWrite where
  byteCount : Word
  conservativePage : Bool
  pos : 0 < byteCount.toNat

/-- The protection of each committed page, and the watch set. -/
structure WatchState where
  memory : Word → Option MemoryProtection
  set : AotPageWriteWatchSet := {}

/-- Which `ProtectMemory` calls succeed. -/
abbrev HostProtects := Word → MemoryProtection → Bool

section
variable (protects : HostProtects)

/-- `ProtectMemory` on one guest page. -/
def protectMemory (memory : Word → Option MemoryProtection) (page : Word)
    (protection : MemoryProtection) : Word → Option MemoryProtection :=
  if protects page protection then Function.update memory page (some protection) else memory

/-! ## Watches -/

/-- The key the watches are sorted by. -/
def watchKey (watch : AotGuestPageWriteWatch) : ℕ := watch.guestPage.toNat

/-- `FindWriteWatch`, where the watch it stops at is the page's. -/
def findWriteWatch (set : AotPageWriteWatchSet) (page : Word) : Option AotGuestPageWriteWatch :=
  find watchKey page.toNat set.watches

/-- `IsAotGuestPageWriteWatched`. -/
def isAotGuestPageWriteWatched (set : AotPageWriteWatchSet) (address : Word) : Bool :=
  (findWriteWatch set (aotGuestPage address)).isSome

/-- Insert the watch of a page before the first later page. -/
def insertWatch (page : Word) (original : MemoryProtection) (set : AotPageWriteWatchSet) :
    AotPageWriteWatchSet :=
  { set with watches := upsert watchKey page.toNat ⟨page, original⟩ id set.watches }

/-- `EnsureWriteWatch`. -/
def ensureWriteWatch (s : WatchState) (address : Word) : Bool × WatchState :=
  let page := aotGuestPage address
  if (findWriteWatch s.set page).isSome then (true, s)
  else
    match s.memory page with
    | none => (false, s)
    | some original =>
      if original = .executeRead then (true, { s with set := insertWatch page original s.set })
      else if protects page .executeRead then
        (true, { memory := protectMemory protects s.memory page .executeRead,
                 set := insertWatch page original s.set })
      else (false, s)

/-- Ensure one watch after the other, up to the first that fails. -/
def ensureWriteWatches : List Word → WatchState → Bool × WatchState
  | [], s => (true, s)
  | page :: pages, s =>
    match ensureWriteWatch protects s page with
    | (true, s') => ensureWriteWatches pages s'
    | (false, s') => (false, s')

/-- `InstallAotGuestPageWriteWatches`. -/
def installAotGuestPageWriteWatches (placement : AotCodeCachePlacement)
    (selectedPages : Option (List Word)) (s : WatchState) : Bool × WatchState :=
  match selectedPages with
  | some pages => ensureWriteWatches protects pages s
  | none => ensureWriteWatches protects (placement.guestPages.map fun p => p.guestPage) s

/-- `RestoreAotGuestPageWriteWatches`. -/
def restoreAotGuestPageWriteWatches (s : WatchState) : WatchState where
  memory := s.set.watches.foldl
    (fun memory watch => protectMemory protects memory watch.guestPage watch.originalProtection) s.memory
  set := { s.set with watches := [], pending := false, pendingPages := [] }

/-- `RemoveAotPageWriteWatch`. -/
def removeAotPageWriteWatch (s : WatchState) (address : Word) : WatchState :=
  let page := aotGuestPage address
  match findWriteWatch s.set page with
  | none => s
  | some _ =>
    { memory := protectMemory protects s.memory page .executeReadWrite,
      set := { s.set with watches := remove watchKey page.toNat s.set.watches } }

/-! ## Pending writes -/

/-- `ResetPendingWrite`. -/
def resetPendingWrite (set : AotPageWriteWatchSet) : AotPageWriteWatchSet :=
  { watches := set.watches }

/-- `RestorePendingPagesToExecuteRead`. -/
def restorePendingPagesToExecuteRead (pages : List Word)
    (memory : Word → Option MemoryProtection) : Word → Option MemoryProtection :=
  pages.foldl (fun memory page => protectMemory protects memory page .executeRead) memory

/-- Give up a pending write: the pages made writable so far are protected again. -/
def abandonWrite (s : WatchState) : WatchState where
  memory := restorePendingPagesToExecuteRead protects s.set.pendingPages s.memory
  set := resetPendingWrite s.set

/-- Make a page writable until the write completes. -/
def admitPage (s : WatchState) (page : Word) : WatchState where
  memory := Function.update s.memory page (some .executeReadWrite)
  set := { s.set with pendingPages := s.set.pendingPages ++ [page] }

/-- A watched page that is not pending yet. -/
def NewPage (set : AotPageWriteWatchSet) (page : Word) : Prop :=
  (findWriteWatch set page).isSome ∧ page ∉ set.pendingPages

instance (set : AotPageWriteWatchSet) (page : Word) : Decidable (NewPage set page) :=
  inferInstanceAs (Decidable (_ ∧ _))

/-- The page loop of `BeginAotGuestWrite`. -/
def beginPages : List Word → WatchState → Bool × WatchState
  | [], s => (true, s)
  | page :: pages, s =>
    if NewPage s.set page then
      if kPendingPageCapacity ≤ s.set.pendingPages.length then (false, abandonWrite protects s)
      else if protects page .executeReadWrite then beginPages pages (admitPage s page)
      else (false, abandonWrite protects s)
    else beginPages pages s

end

/-- The first byte of the range a faulting instruction writes. -/
def DecodedGuestWrite.rangeBegin (decoded : DecodedGuestWrite) (faultAddress : Word) : Word :=
  if decoded.conservativePage then aotGuestPage faultAddress else faultAddress

/-- The end of the range a faulting instruction writes. -/
def DecodedGuestWrite.rangeEnd (decoded : DecodedGuestWrite) (faultAddress : Word) : ℕ :=
  (decoded.rangeBegin faultAddress).toNat +
    if decoded.conservativePage then kGuestPageSize else decoded.byteCount.toNat

/-- The pages the loop of `BeginAotGuestWrite` goes through. -/
def DecodedGuestWrite.rangePages (decoded : DecodedGuestWrite) (faultAddress : Word) : List Word :=
  spannedPages (decoded.rangeBegin faultAddress) (decoded.rangeEnd faultAddress - 1)

/-- The end of the pending range. -/
def AotPageWriteWatchSet.pendingEnd (set : AotPageWriteWatchSet) : ℕ :=
  set.pendingDestination.toNat + set.pendingByteCount.toNat

/-- What is reported of a pending write when it completes. -/
def AotPageWriteWatchSet.completion (set : AotPageWriteWatchSet) : AotGuestWriteCompletion where
  fromGuest := set.pendingFromGuest
  keepSingleStep := set.pendingKeepSingleStep
  source := set.pendingSource
  destination := set.pendingDestination
  byteCount := set.pendingByteCount

/-- Join a range to the pending one, or start with it; the byte count is cut to 32 bits. -/
def joinPendingWrite (rangeBegin : Word) (rangeEnd : ℕ) (fromGuest keepSingleStep : Bool)
    (guestSource : Word) (set : AotPageWriteWatchSet) : AotPageWriteWatchSet :=
  if set.pending then
    let combinedBegin := if rangeBegin < set.pendingDestination then rangeBegin
      else set.pendingDestination
    let combinedEnd := max set.pendingEnd rangeEnd
    { set with
      pendingDestination := combinedBegin
      pendingByteCount := BitVec.ofNat 32 (combinedEnd - combinedBegin.toNat)
      pendingKeepSingleStep := set.pendingKeepSingleStep || keepSingleStep
      pendingSource := if set.pendingSource = 0 then guestSource else set.pendingSource }
  else
    { set with
      pending := true
      pendingFromGuest := fromGuest
      pendingKeepSingleStep := keepSingleStep
      pendingSource := guestSource
      pendingDestination := rangeBegin
      pendingByteCount := BitVec.ofNat 32 (rangeEnd - rangeBegin.toNat) }

section
variable (protects : HostProtects)

/-- `BeginAotGuestWrite`, after `DecodeGuestWrite` has decoded the instruction. -/
def beginAotGuestWrite (decoded : DecodedGuestWrite) (faultAddress : Word)
    (fromGuest keepSingleStep : Bool) (guestSource : Word) (s : WatchState) : Bool × WatchState :=
  let rangeBegin := decoded.rangeBegin faultAddress
  let rangeEnd := decoded.rangeEnd faultAddress
  if (findWriteWatch s.set (aotGuestPage faultAddress)).isNone then (false, s)
  else if 2 ^ 32 < rangeEnd then (false, s)
  else
    let joined := { s with
      set := joinPendingWrite rangeBegin rangeEnd fromGuest keepSingleStep guestSource s.set }
    match beginPages protects (decoded.rangePages faultAddress) joined with
    | (true, s') => (!s'.set.pendingPages.isEmpty, s')
    | (false, s') => (false, s')

/-- `CompleteAotGuestWrite`. -/
def completeAotGuestWrite (s : WatchState) : Option AotGuestWriteCompletion × WatchState :=
  if !s.set.pending || s.set.pendingPages.isEmpty then (none, s)
  else
    let memory := restorePendingPagesToExecuteRead protects s.set.pendingPages s.memory
    if s.set.pendingPages.all fun page => protects page .executeRead then
      (some s.set.completion, { memory := memory, set := resetPendingWrite s.set })
    else (none, { s with memory := memory })

end

/-! ## Runs -/

/-- The operations on a watch set. -/
inductive WatchCall
  | install (placement : AotCodeCachePlacement) (selectedPages : Option (List Word))
  | remove (address : Word)
  | restoreAll
  | begin (decoded : DecodedGuestWrite) (faultAddress : Word) (fromGuest keepSingleStep : Bool)
      (guestSource : Word)
  | complete

/-- The state an operation leaves. -/
def WatchCall.apply (protects : HostProtects) (s : WatchState) : WatchCall → WatchState
  | install placement selectedPages =>
    (installAotGuestPageWriteWatches protects placement selectedPages s).2
  | remove address => removeAotPageWriteWatch protects s address
  | restoreAll => restoreAotGuestPageWriteWatches protects s
  | begin decoded faultAddress fromGuest keepSingleStep guestSource =>
    (beginAotGuestWrite protects decoded faultAddress fromGuest keepSingleStep guestSource s).2
  | complete => (completeAotGuestWrite protects s).2

/-- A state with what happened before: the ranges begun since the last completion, and the
protection each page had when it was last not watched. -/
structure WatchHistory where
  state : WatchState
  begun : List (ℕ × ℕ) := []
  unwatched : Word → Option MemoryProtection

/-- The ranges begun since the last completion, after an operation. -/
def WatchCall.begun (protects : HostProtects) (h : WatchHistory) : WatchCall → List (ℕ × ℕ)
  | begin decoded faultAddress fromGuest keepSingleStep guestSource =>
    if (beginAotGuestWrite protects decoded faultAddress fromGuest keepSingleStep guestSource
        h.state).1 then
      ((decoded.rangeBegin faultAddress).toNat, decoded.rangeEnd faultAddress) :: h.begun
    else h.begun
  | complete => if (completeAotGuestWrite protects h.state).1.isSome then [] else h.begun
  | _ => h.begun

/-- An operation, with the history kept. -/
def WatchHistory.step (protects : HostProtects) (call : WatchCall) (h : WatchHistory) :
    WatchHistory where
  state := call.apply protects h.state
  begun := call.begun protects h
  unwatched page :=
    if (findWriteWatch (call.apply protects h.state).set page).isSome then h.unwatched page
    else (call.apply protects h.state).memory page

/-- The histories of operations that all meet a condition, from an empty watch set over any
memory. -/
inductive WatchRun (cond : HostProtects → WatchCall → WatchState → Prop) : WatchHistory → Prop
  | start (memory : Word → Option MemoryProtection) :
    WatchRun cond { state := { memory := memory }, unwatched := memory }
  | step {h : WatchHistory} (protects : HostProtects) (call : WatchCall) (hrun : WatchRun cond h)
      (hcond : cond protects call h.state) : WatchRun cond (h.step protects call)

/-! ## One operation -/

section
variable {protects : HostProtects} {set : AotPageWriteWatchSet}

theorem findWriteWatch_eq_some (h : Sorted watchKey set.watches) {page : Word}
    {watch : AotGuestPageWriteWatch} :
    findWriteWatch set page = some watch ↔ watch ∈ set.watches ∧ watch.guestPage = page := by
  rw [findWriteWatch, find_eq_some h, watchKey, BitVec.toNat_inj]

theorem sorted_insertWatch (h : Sorted watchKey set.watches) (page : Word)
    (original : MemoryProtection) : Sorted watchKey (insertWatch page original set).watches := by
  have hnew : watchKey (id ⟨page, original⟩) = page.toNat := rfl
  exact Sorted.upsert hnew (fun _ => rfl) h

theorem findWriteWatch_insertWatch (h : Sorted watchKey set.watches) {page : Word}
    (hpage : findWriteWatch set page = none) (original : MemoryProtection) (q : Word) :
    findWriteWatch (insertWatch page original set) q =
      if q = page then some ⟨page, original⟩ else findWriteWatch set q := by
  have hnew : watchKey (id ⟨page, original⟩) = page.toNat := rfl
  have hkey : ∀ watch, watchKey (id watch) = watchKey watch := fun _ => rfl
  unfold findWriteWatch at hpage
  simp only [findWriteWatch, insertWatch]
  by_cases hq : q = page
  · rw [if_pos hq, hq, find_upsert_self hnew hkey h, hpage]
    rfl
  · rw [if_neg hq]
    apply find_upsert_of_ne hnew hkey
    rwa [Ne, BitVec.toNat_inj]

theorem protectMemory_of_ne {memory : Word → Option MemoryProtection} {page q : Word}
    (hq : q ≠ page) (protection : MemoryProtection) :
    protectMemory protects memory page protection q = memory q := by
  unfold protectMemory
  by_cases h : protects page protection
  · rw [if_pos h, Function.update_of_ne hq]
  · rw [if_neg h]

theorem protectMemory_self (memory : Word → Option MemoryProtection) (page : Word)
    (protection : MemoryProtection) : protectMemory protects memory page protection page =
      if protects page protection then some protection else memory page := by
  unfold protectMemory
  by_cases h : protects page protection
  · rw [if_pos h, if_pos h, Function.update_self]
  · rw [if_neg h, if_neg h]

theorem restorePendingPagesToExecuteRead_apply (pages : List Word)
    (memory : Word → Option MemoryProtection) (q : Word) :
    restorePendingPagesToExecuteRead protects pages memory q =
      if q ∈ pages ∧ protects q .executeRead then some .executeRead else memory q := by
  unfold restorePendingPagesToExecuteRead
  induction pages generalizing memory with
  | nil => simp
  | cons page pages ih =>
    rw [List.foldl_cons, ih]
    by_cases hq : q = page
    · subst hq
      rw [protectMemory_self]
      by_cases hok : protects q .executeRead = true
      · simp [hok]
      · simp [hok]
    · rw [protectMemory_of_ne hq]
      simp [hq]

/-- Restoring the saved protections leaves other pages alone. -/
theorem restoreWatches_of_not_mem {watches : List AotGuestPageWriteWatch} {q : Word}
    (hq : ∀ watch ∈ watches, watch.guestPage ≠ q) (memory : Word → Option MemoryProtection) :
    watches.foldl (fun memory watch =>
      protectMemory protects memory watch.guestPage watch.originalProtection) memory q = memory q := by
  induction watches generalizing memory with
  | nil => rfl
  | cons watch watches ih =>
    rw [List.foldl_cons, ih (fun w hw => hq w (List.mem_cons_of_mem _ hw)),
      protectMemory_of_ne (hq watch List.mem_cons_self).symm]

theorem restoreWatches_of_mem {watches : List AotGuestPageWriteWatch}
    (h : Sorted watchKey watches) {watch : AotGuestPageWriteWatch} (hmem : watch ∈ watches)
    (memory : Word → Option MemoryProtection) :
    watches.foldl (fun memory watch =>
      protectMemory protects memory watch.guestPage watch.originalProtection) memory
        watch.guestPage =
      if protects watch.guestPage watch.originalProtection then some watch.originalProtection
      else memory watch.guestPage := by
  induction watches generalizing memory with
  | nil => exact absurd hmem List.not_mem_nil
  | cons first watches ih =>
    obtain ⟨hfirst, hrest⟩ := List.pairwise_cons.mp h
    have hne : ∀ w ∈ watches, w.guestPage ≠ first.guestPage := by
      intro w hw heq
      have := hfirst w hw
      rw [watchKey, watchKey, heq] at this
      exact lt_irrefl _ this
    rw [List.foldl_cons]
    rcases List.mem_cons.mp hmem with rfl | hmem
    · rw [restoreWatches_of_not_mem hne, protectMemory_self]
    · rw [ih hrest hmem, protectMemory_of_ne (hne watch hmem)]

/-! ## The page loop -/

theorem foldl_admitPage_memory (pages : List Word) (s : WatchState) (q : Word) :
    (pages.foldl admitPage s).memory q =
      if q ∈ pages then some .executeReadWrite else s.memory q := by
  induction pages generalizing s with
  | nil => simp
  | cons page pages ih =>
    rw [List.foldl_cons, ih]
    by_cases hq : q = page
    · simp [hq, admitPage]
    · simp [hq, admitPage, Function.update_of_ne]

theorem foldl_admitPage_set (pages : List Word) (s : WatchState) :
    (pages.foldl admitPage s).set =
      { s.set with pendingPages := s.set.pendingPages ++ pages } := by
  induction pages generalizing s with
  | nil => simp
  | cons page pages ih =>
    rw [List.foldl_cons, ih]
    simp [admitPage]

theorem NewPage.of_admitPage {s : WatchState} {page q : Word} (h : NewPage (admitPage s page).set q) :
    NewPage s.set q :=
  ⟨h.1, fun hq => h.2 (List.mem_append_left _ hq)⟩

/-- The loop makes some new pages of the range writable, and either keeps them pending or
gives the whole write up. -/
theorem beginPages_spec (pages : List Word) (s : WatchState) :
    ∃ admitted : List Word, (∀ page ∈ admitted, page ∈ pages ∧ NewPage s.set page) ∧
      (beginPages protects pages s = (true, admitted.foldl admitPage s) ∨
        beginPages protects pages s = (false, abandonWrite protects (admitted.foldl admitPage s))) := by
  induction pages generalizing s with
  | nil => exact ⟨[], by simp, Or.inl rfl⟩
  | cons page pages ih =>
    rw [beginPages]
    by_cases hnew : NewPage s.set page
    · rw [if_pos hnew]
      by_cases hfull : kPendingPageCapacity ≤ s.set.pendingPages.length
      · rw [if_pos hfull]
        exact ⟨[], by simp, Or.inr rfl⟩
      · rw [if_neg hfull]
        by_cases hok : protects page .executeReadWrite = true
        · rw [if_pos hok]
          obtain ⟨admitted, hadmitted, hresult⟩ := ih (admitPage s page)
          refine ⟨page :: admitted, ?_, hresult⟩
          intro q hq
          rcases List.mem_cons.mp hq with rfl | hq
          · exact ⟨List.mem_cons_self, hnew⟩
          · obtain ⟨hmem, hq⟩ := hadmitted q hq
            exact ⟨List.mem_cons_of_mem _ hmem, hq.of_admitPage⟩
        · rw [if_neg hok]
          exact ⟨[], by simp, Or.inr rfl⟩
    · rw [if_neg hnew]
      obtain ⟨admitted, hadmitted, hresult⟩ := ih s
      refine ⟨admitted, ?_, hresult⟩
      intro q hq
      exact ⟨List.mem_cons_of_mem _ (hadmitted q hq).1, (hadmitted q hq).2⟩

/-- The new pages of a range fit into the pending array and can be made writable. -/
def PagesFit (protects : HostProtects) (set : AotPageWriteWatchSet) (pages : List Word) : Prop :=
  set.pendingPages.length + pages.countP (fun page => NewPage set page) ≤ kPendingPageCapacity ∧
    ∀ page ∈ pages, NewPage set page → protects page .executeReadWrite

theorem beginPages_of_fit {pages : List Word} {s : WatchState}
    (h : PagesFit protects s.set pages) : (beginPages protects pages s).1 = true := by
  induction pages generalizing s with
  | nil => rfl
  | cons page pages ih =>
    obtain ⟨hcount, hok⟩ := h
    have hok' : ∀ q ∈ pages, NewPage s.set q → protects q .executeReadWrite :=
      fun q hq => hok q (List.mem_cons_of_mem _ hq)
    rw [List.countP_cons] at hcount
    rw [beginPages]
    by_cases hnew : NewPage s.set page
    · have hroom : s.set.pendingPages.length + pages.countP (fun page => NewPage s.set page) + 1 ≤
          kPendingPageCapacity := by
        simpa [hnew, Nat.add_assoc] using hcount
      rw [if_pos hnew, if_neg (by omega), if_pos (hok page List.mem_cons_self hnew)]
      apply ih
      -- the page is pending now, so no more pages are new than before
      have hmono : pages.countP (fun q => NewPage (admitPage s page).set q) ≤
          pages.countP (fun q => NewPage s.set q) := by
        apply List.countP_mono_left
        intro q _ hq
        exact decide_eq_true (NewPage.of_admitPage (of_decide_eq_true hq))
      constructor
      · have hlength : (admitPage s page).set.pendingPages.length =
            s.set.pendingPages.length + 1 := by
          simp [admitPage]
        omega
      · intro q hq hnewq
        exact hok' q hq hnewq.of_admitPage
    · rw [if_neg hnew]
      exact ih ⟨by omega, hok'⟩

end

/-! ## Clean operations -/

/-- A pending write and a range that together span the whole address space, whose size has no
32-bit count. -/
def SpansAll (set : AotPageWriteWatchSet) (rangeBegin : Word) (rangeEnd : ℕ) : Prop :=
  set.pending ∧ (set.pendingDestination = 0 ∨ rangeBegin = 0) ∧
    2 ^ 32 ≤ max set.pendingEnd rangeEnd

/-- When an operation keeps to the protocol.  A watch is removed only of a page that is not
pending, and where the protection the operation leaves is the saved one; all watches are
restored only while no write is pending, where every saved protection can be set; a range that
is joined to a pending write fits, and a write that cannot begin can be undone. -/
def WatchCall.Clean (protects : HostProtects) : WatchCall → WatchState → Prop
  | install _ _, _ => True
  | remove address, s => ∀ watch, findWriteWatch s.set (aotGuestPage address) = some watch →
    watch.guestPage ∉ s.set.pendingPages ∧ watch.originalProtection =
      if protects watch.guestPage .executeReadWrite then .executeReadWrite else .executeRead
  | restoreAll, s => s.set.pending = false ∧ ∀ watch ∈ s.set.watches,
    protects watch.guestPage watch.originalProtection ∨ watch.originalProtection = .executeRead
  | begin decoded faultAddress _ _ _, s =>
    (findWriteWatch s.set (aotGuestPage faultAddress)).isSome →
      decoded.rangeEnd faultAddress ≤ 2 ^ 32 →
      (PagesFit protects s.set (decoded.rangePages faultAddress) ∧
        ¬ SpansAll s.set (decoded.rangeBegin faultAddress) (decoded.rangeEnd faultAddress)) ∨
      (s.set.pending = false ∧ ∀ page ∈ decoded.rangePages faultAddress,
        NewPage s.set page → protects page .executeRead)
  | complete, _ => True

/-- The watches of a state, against the protections the unwatched pages have: a saved protection
is the one the page had, and an unwatched page has it. -/
structure Watching (s : WatchState) (unwatched : Word → Option MemoryProtection) : Prop where
  sorted : Sorted watchKey s.set.watches
  pending : ∀ page ∈ s.set.pendingPages, (findWriteWatch s.set page).isSome
  idle : s.set.pending = false → s.set.pendingPages = []
  guarded : ∀ page, (findWriteWatch s.set page).isSome → page ∉ s.set.pendingPages →
    s.memory page = some .executeRead
  saved : ∀ page watch, findWriteWatch s.set page = some watch →
    unwatched page = some watch.originalProtection
  free : ∀ page, findWriteWatch s.set page = none → s.memory page = unwatched page

section
variable {protects : HostProtects} {s : WatchState} {unwatched : Word → Option MemoryProtection}

/-- Protecting a page that is committed and not watched, and watching it. -/
theorem Watching.insert (h : Watching s unwatched) {page : Word}
    (hpage : findWriteWatch s.set page = none) {original : MemoryProtection}
    (horiginal : s.memory page = some original) {memory : Word → Option MemoryProtection}
    (hself : memory page = some .executeRead) (hother : ∀ q, q ≠ page → memory q = s.memory q) :
    Watching { memory := memory, set := insertWatch page original s.set } unwatched := by
  have hfind := findWriteWatch_insertWatch h.sorted hpage original
  constructor
  · exact sorted_insertWatch h.sorted page original
  · intro q hq
    rw [hfind]
    by_cases hqp : q = page
    · rw [if_pos hqp]
      rfl
    · rw [if_neg hqp]
      exact h.pending q hq
  · exact h.idle
  · intro q hq hnot
    by_cases hqp : q = page
    · rw [hqp]
      exact hself
    · rw [hfind, if_neg hqp] at hq
      exact (hother q hqp).trans (h.guarded q hq hnot)
  · intro q watch hq
    rw [hfind] at hq
    by_cases hqp : q = page
    · rw [if_pos hqp, Option.some.injEq] at hq
      rw [hqp, ← h.free page hpage, horiginal, ← hq]
    · rw [if_neg hqp] at hq
      exact h.saved q watch hq
  · intro q hq
    rw [hfind] at hq
    by_cases hqp : q = page
    · rw [if_pos hqp] at hq
      exact absurd hq (Option.some_ne_none _)
    · rw [if_neg hqp] at hq
      exact (hother q hqp).trans (h.free q hq)

theorem Watching.ensureWriteWatch (h : Watching s unwatched) (address : Word) :
    Watching (ensureWriteWatch protects s address).2 unwatched := by
  unfold Engine.ensureWriteWatch
  dsimp only
  generalize aotGuestPage address = page
  by_cases hwatched : (findWriteWatch s.set page).isSome
  · rw [if_pos hwatched]
    exact h
  · rw [if_neg hwatched]
    rw [Bool.not_eq_true, Option.isSome_eq_false_iff, Option.isNone_iff_eq_none] at hwatched
    cases hmemory : s.memory page with
    | none => exact h
    | some original =>
      dsimp only
      by_cases hread : original = .executeRead
      · rw [if_pos hread]
        exact h.insert hwatched hmemory (by rw [hmemory, hread]) (fun _ _ => rfl)
      · rw [if_neg hread]
        by_cases hok : protects page .executeRead = true
        · rw [if_pos hok]
          apply h.insert hwatched hmemory
          · rw [protectMemory_self, if_pos hok]
          · intro q hq
            exact protectMemory_of_ne hq _
        · rw [if_neg hok]
          exact h

theorem Watching.ensureWriteWatches (h : Watching s unwatched) (pages : List Word) :
    Watching (ensureWriteWatches protects pages s).2 unwatched := by
  induction pages generalizing s with
  | nil => exact h
  | cons page pages ih =>
    have hstep := @Watching.ensureWriteWatch protects _ _ h page
    rw [Engine.ensureWriteWatches]
    generalize Engine.ensureWriteWatch protects s page = result at hstep ⊢
    obtain ⟨ok, s'⟩ := result
    cases ok with
    | true => exact ih hstep
    | false => exact hstep

theorem Watching.removeAotPageWriteWatch (h : Watching s unwatched) {address : Word}
    (hclean : (WatchCall.remove address).Clean protects s) :
    Watching (removeAotPageWriteWatch protects s address) unwatched := by
  simp only [WatchCall.Clean] at hclean
  unfold Engine.removeAotPageWriteWatch
  dsimp only
  generalize aotGuestPage address = page at hclean ⊢
  cases hwatch : findWriteWatch s.set page with
  | none => exact h
  | some watch =>
    obtain ⟨hnot, horiginal⟩ := hclean watch hwatch
    have hwpage : watch.guestPage = page := ((findWriteWatch_eq_some h.sorted).mp hwatch).2
    rw [hwpage] at hnot horiginal
    have hread : s.memory page = some .executeRead := h.guarded page (by rw [hwatch]; rfl) hnot
    have hfind : ∀ q, findWriteWatch
        { s.set with watches := remove watchKey page.toNat s.set.watches } q =
          if q = page then none else findWriteWatch s.set q := by
      intro q
      unfold findWriteWatch
      rw [find_remove h.sorted]
      simp only [BitVec.toNat_inj]
    constructor
    · exact h.sorted.remove _
    · intro q hq
      have hqp : q ≠ page := by
        rintro rfl
        exact hnot hq
      rw [hfind, if_neg hqp]
      exact h.pending q hq
    · exact h.idle
    · intro q hq hqnot
      by_cases hqp : q = page
      · rw [hfind, if_pos hqp] at hq
        exact absurd hq Bool.false_ne_true
      · rw [hfind, if_neg hqp] at hq
        exact (protectMemory_of_ne hqp _).trans (h.guarded q hq hqnot)
    · intro q w hq
      by_cases hqp : q = page
      · rw [hfind, if_pos hqp] at hq
        exact absurd hq.symm (Option.some_ne_none _)
      · rw [hfind, if_neg hqp] at hq
        exact h.saved q w hq
    · intro q hq
      by_cases hqp : q = page
      · subst hqp
        -- what is left is the saved protection: by the condition, with or without the call
        show protectMemory protects s.memory q .executeReadWrite q = unwatched q
        rw [protectMemory_self, h.saved q watch hwatch, horiginal, hread]
        by_cases hok : protects q .executeReadWrite = true
        · rw [if_pos hok, if_pos hok]
        · rw [if_neg hok, if_neg hok]
      · rw [hfind, if_neg hqp] at hq
        exact (protectMemory_of_ne hqp _).trans (h.free q hq)

theorem Watching.restoreAotGuestPageWriteWatches (h : Watching s unwatched)
    (hclean : WatchCall.restoreAll.Clean protects s) :
    Watching (restoreAotGuestPageWriteWatches protects s) unwatched := by
  obtain ⟨hidle, hok⟩ := hclean
  constructor
  · exact List.Pairwise.nil
  · intro page hpage
    exact absurd hpage List.not_mem_nil
  · intro _
    rfl
  · intro page hpage
    exact absurd hpage Bool.false_ne_true
  · intro page watch hpage
    exact absurd hpage.symm (Option.some_ne_none _)
  · intro page _
    show s.set.watches.foldl _ s.memory page = unwatched page
    cases hwatch : findWriteWatch s.set page with
    | none =>
      rw [restoreWatches_of_not_mem, h.free page hwatch]
      intro watch hmem heq
      have := (findWriteWatch_eq_some h.sorted).mpr ⟨hmem, heq⟩
      rw [hwatch] at this
      exact absurd this.symm (Option.some_ne_none _)
    | some watch =>
      obtain ⟨hmem, rfl⟩ := (findWriteWatch_eq_some h.sorted).mp hwatch
      have hread : s.memory watch.guestPage = some .executeRead := by
        apply h.guarded _ (by rw [hwatch]; rfl)
        rw [h.idle hidle]
        exact List.not_mem_nil
      rw [restoreWatches_of_mem h.sorted hmem, h.saved _ _ hwatch, hread]
      rcases hok watch hmem with hset | hsame
      · rw [if_pos hset]
      · rw [hsame]
        exact ite_self _

theorem joinPendingWrite_watches (rangeBegin : Word) (rangeEnd : ℕ) (fromGuest keepSingleStep : Bool)
    (guestSource : Word) (set : AotPageWriteWatchSet) :
    (joinPendingWrite rangeBegin rangeEnd fromGuest keepSingleStep guestSource set).watches =
        set.watches ∧
      (joinPendingWrite rangeBegin rangeEnd fromGuest keepSingleStep guestSource set).pendingPages =
        set.pendingPages ∧
      (joinPendingWrite rangeBegin rangeEnd fromGuest keepSingleStep guestSource set).pending =
        true := by
  unfold joinPendingWrite
  by_cases hpending : set.pending = true
  · rw [if_pos hpending]
    exact ⟨rfl, rfl, hpending⟩
  · rw [if_neg hpending]
    exact ⟨rfl, rfl, rfl⟩

/-- Only the watches and the pending pages matter to what is watched. -/
theorem findWriteWatch_congr {set set' : AotPageWriteWatchSet} (h : set'.watches = set.watches)
    (page : Word) : findWriteWatch set' page = findWriteWatch set page := by
  rw [findWriteWatch, findWriteWatch, h]

/-- A state with the same watches, whose memory differs on pending pages only. -/
theorem Watching.of_pending (h : Watching s unwatched) {s' : WatchState}
    (hwatches : s'.set.watches = s.set.watches)
    (hpending : ∀ page ∈ s'.set.pendingPages, (findWriteWatch s.set page).isSome)
    (hidle : s'.set.pending = false → s'.set.pendingPages = [])
    (hguarded : ∀ page, (findWriteWatch s.set page).isSome → page ∉ s'.set.pendingPages →
      s'.memory page = some .executeRead)
    (hfree : ∀ page, findWriteWatch s.set page = none → s'.memory page = s.memory page) :
    Watching s' unwatched := by
  have hfind := findWriteWatch_congr hwatches
  constructor
  · rw [hwatches]
    exact h.sorted
  · intro page hpage
    rw [hfind]
    exact hpending page hpage
  · exact hidle
  · intro page hpage
    rw [hfind] at hpage
    exact hguarded page hpage
  · intro page watch hpage
    rw [hfind] at hpage
    exact h.saved page watch hpage
  · intro page hpage
    rw [hfind] at hpage
    exact (hfree page hpage).trans (h.free page hpage)

/-- What a write that begins can do: nothing, add new pages of its range to the pending ones, or
give everything up. -/
theorem beginAotGuestWrite_cases (decoded : DecodedGuestWrite) (faultAddress : Word)
    (fromGuest keepSingleStep : Bool) (guestSource : Word) (s : WatchState) :
    let result := beginAotGuestWrite protects decoded faultAddress fromGuest keepSingleStep
      guestSource s
    let joined := joinPendingWrite (decoded.rangeBegin faultAddress) (decoded.rangeEnd faultAddress)
      fromGuest keepSingleStep guestSource s.set
    result = (false, s) ∨
      ((findWriteWatch s.set (aotGuestPage faultAddress)).isSome ∧
        decoded.rangeEnd faultAddress ≤ 2 ^ 32 ∧
        ∃ admitted : List Word, (∀ page ∈ admitted, page ∈ decoded.rangePages faultAddress ∧
            NewPage s.set page) ∧
          (result.2 = admitted.foldl admitPage { s with set := joined } ∨
            (¬ PagesFit protects s.set (decoded.rangePages faultAddress) ∧ result =
              (false, abandonWrite protects (admitted.foldl admitPage { s with set := joined }))))) := by
  dsimp only
  unfold beginAotGuestWrite
  dsimp only
  by_cases hwatched : (findWriteWatch s.set (aotGuestPage faultAddress)).isNone
  · rw [if_pos hwatched]
    exact Or.inl rfl
  · rw [if_neg hwatched]
    rw [Bool.not_eq_true, Option.isNone_eq_false_iff] at hwatched
    by_cases hend : 2 ^ 32 < decoded.rangeEnd faultAddress
    · rw [if_pos hend]
      exact Or.inl rfl
    · rw [if_neg hend]
      obtain ⟨hwatches, hpages, -⟩ := joinPendingWrite_watches (decoded.rangeBegin faultAddress)
        (decoded.rangeEnd faultAddress) fromGuest keepSingleStep guestSource s.set
      generalize joinPendingWrite _ _ _ _ _ _ = joined at hwatches hpages ⊢
      have hnew : ∀ page, NewPage joined page ↔ NewPage s.set page := by
        intro page
        rw [NewPage, NewPage, findWriteWatch_congr hwatches, hpages]
      obtain ⟨admitted, hadmitted, hresult⟩ := @beginPages_spec protects
        (decoded.rangePages faultAddress) { s with set := joined }
      refine Or.inr ⟨hwatched, Nat.le_of_not_lt hend, admitted, ?_, ?_⟩
      · intro page hpage
        exact ⟨(hadmitted page hpage).1, (hnew page).mp (hadmitted page hpage).2⟩
      · rcases hresult with hresult | hresult
        · rw [hresult]
          exact Or.inl rfl
        · right
          rw [hresult]
          refine ⟨?_, rfl⟩
          rintro ⟨hroom, hok⟩
          have hfit : PagesFit protects joined (decoded.rangePages faultAddress) := by
            unfold PagesFit
            simp only [hpages, hnew]
            exact ⟨hroom, hok⟩
          have := beginPages_of_fit (s := { s with set := joined }) hfit
          rw [hresult] at this
          exact absurd this Bool.false_ne_true

theorem Watching.beginAotGuestWrite (h : Watching s unwatched) {decoded : DecodedGuestWrite}
    {faultAddress : Word} {fromGuest keepSingleStep : Bool} {guestSource : Word}
    (hclean : (WatchCall.begin decoded faultAddress fromGuest keepSingleStep guestSource).Clean
      protects s) :
    Watching (beginAotGuestWrite protects decoded faultAddress fromGuest keepSingleStep
      guestSource s).2 unwatched := by
  obtain ⟨hwatches, hpages, hpending⟩ := joinPendingWrite_watches (decoded.rangeBegin faultAddress)
    (decoded.rangeEnd faultAddress) fromGuest keepSingleStep guestSource s.set
  rcases @beginAotGuestWrite_cases protects decoded faultAddress fromGuest keepSingleStep
    guestSource s with hsame | ⟨hwatched, hend, admitted, hadmitted, hresult⟩
  · rw [hsame]
    exact h
  generalize joinPendingWrite _ _ _ _ _ _ = joined at hwatches hpages hpending hresult
  rcases hresult with hresult | ⟨hfit, hresult⟩
  · rw [hresult]
    apply h.of_pending
    · rw [foldl_admitPage_set]
      exact hwatches
    · intro page hpage
      rw [foldl_admitPage_set] at hpage
      rcases List.mem_append.mp hpage with hpage | hpage
      · exact h.pending page (hpages ▸ hpage)
      · exact (hadmitted page hpage).2.1
    · intro hidle
      rw [foldl_admitPage_set] at hidle
      exact absurd (hpending.symm.trans hidle) (by decide)
    · intro page hpage hnot
      rw [foldl_admitPage_set, List.mem_append, not_or] at hnot
      rw [foldl_admitPage_memory, if_neg hnot.2]
      exact h.guarded page hpage (hpages ▸ hnot.1)
    · intro page hpage
      rw [foldl_admitPage_memory, if_neg]
      intro hmem
      have := (hadmitted page hmem).2.1
      rw [hpage] at this
      exact absurd this Bool.false_ne_true
  · -- nothing was pending before, and every page made writable is protected again
    obtain ⟨hfits, -⟩ | ⟨hidle, hok⟩ := hclean hwatched hend
    · exact absurd hfits hfit
    have hnone : joined.pendingPages = [] := hpages.trans (h.idle hidle)
    have hset : (admitted.foldl admitPage { s with set := joined }).set.pendingPages = admitted := by
      rw [foldl_admitPage_set]
      exact (congrArg (· ++ admitted) hnone).trans (List.nil_append _)
    have hmemory : ∀ page, (abandonWrite protects (admitted.foldl admitPage
        { s with set := joined })).memory page =
          if page ∈ admitted then some .executeRead else s.memory page := by
      intro page
      show restorePendingPagesToExecuteRead _ _ _ _ = _
      rw [restorePendingPagesToExecuteRead_apply, hset, foldl_admitPage_memory]
      by_cases hmem : page ∈ admitted
      · have hprotect := hok page (hadmitted page hmem).1 (hadmitted page hmem).2
        rw [if_pos ⟨hmem, hprotect⟩, if_pos hmem]
      · rw [if_neg (fun hand => hmem hand.1), if_neg hmem, if_neg hmem]
    rw [hresult]
    apply h.of_pending
    · show (admitted.foldl admitPage { s with set := joined }).set.watches = s.set.watches
      rw [foldl_admitPage_set]
      exact hwatches
    · intro page hpage
      exact absurd hpage List.not_mem_nil
    · intro _
      rfl
    · intro page hpage _
      rw [hmemory]
      by_cases hmem : page ∈ admitted
      · rw [if_pos hmem]
      · rw [if_neg hmem]
        apply h.guarded page hpage
        rw [h.idle hidle]
        exact List.not_mem_nil
    · intro page hpage
      rw [hmemory, if_neg]
      intro hmem
      have := (hadmitted page hmem).2.1
      rw [hpage] at this
      exact absurd this Bool.false_ne_true

/-- Completing a write: refused, done, or refused with some pages protected already. -/
theorem completeAotGuestWrite_cases (s : WatchState) :
    completeAotGuestWrite protects s = (none, s) ∨
      completeAotGuestWrite protects s =
        (none, ⟨restorePendingPagesToExecuteRead protects s.set.pendingPages s.memory, s.set⟩) ∨
      ((∀ page ∈ s.set.pendingPages, protects page .executeRead) ∧ s.set.pending = true ∧
        completeAotGuestWrite protects s =
          (some s.set.completion,
            ⟨restorePendingPagesToExecuteRead protects s.set.pendingPages s.memory,
              resetPendingWrite s.set⟩)) := by
  unfold completeAotGuestWrite
  by_cases hpending : (!s.set.pending || s.set.pendingPages.isEmpty) = true
  · rw [if_pos hpending]
    exact Or.inl rfl
  · rw [if_neg hpending]
    dsimp only
    by_cases hok : (s.set.pendingPages.all fun page => protects page .executeRead) = true
    · rw [if_pos hok]
      right; right
      refine ⟨List.all_eq_true.mp hok, ?_, rfl⟩
      cases hp : s.set.pending with
      | true => rfl
      | false => simp [hp] at hpending
    · rw [if_neg hok]
      exact Or.inr (Or.inl rfl)

theorem Watching.completeAotGuestWrite (h : Watching s unwatched) :
    Watching (completeAotGuestWrite protects s).2 unwatched := by
  have hmemory : ∀ page, page ∉ s.set.pendingPages →
      restorePendingPagesToExecuteRead protects s.set.pendingPages s.memory page =
        s.memory page := by
    intro page hpage
    rw [restorePendingPagesToExecuteRead_apply, if_neg (fun hand => hpage hand.1)]
  have hfree : ∀ page, findWriteWatch s.set page = none → page ∉ s.set.pendingPages := by
    intro page hpage hmem
    have := h.pending page hmem
    rw [hpage] at this
    exact absurd this Bool.false_ne_true
  rcases @completeAotGuestWrite_cases protects s with heq | heq | ⟨hok, -, heq⟩
  · rw [heq]
    exact h
  · rw [heq]
    apply h.of_pending
    · rfl
    · exact h.pending
    · exact h.idle
    · intro page hpage hnot
      exact (hmemory page hnot).trans (h.guarded page hpage hnot)
    · intro page hpage
      exact hmemory page (hfree page hpage)
  · rw [heq]
    apply h.of_pending
    · rfl
    · intro page hpage
      exact absurd hpage List.not_mem_nil
    · intro _
      rfl
    · intro page hpage _
      show restorePendingPagesToExecuteRead _ _ _ _ = _
      rw [restorePendingPagesToExecuteRead_apply]
      by_cases hmem : page ∈ s.set.pendingPages
      · rw [if_pos ⟨hmem, hok page hmem⟩]
      · rw [if_neg (fun hand => hmem hand.1)]
        exact h.guarded page hpage hmem
    · intro page hpage
      exact hmemory page (hfree page hpage)

/-- Every clean operation keeps the watches, and the protection of every unwatched page. -/
theorem Watching.apply (h : Watching s unwatched) {call : WatchCall}
    (hclean : call.Clean protects s) : Watching (call.apply protects s) unwatched := by
  cases call with
  | install placement selectedPages =>
    cases selectedPages with
    | none => exact h.ensureWriteWatches _
    | some pages => exact h.ensureWriteWatches pages
  | remove address => exact h.removeAotPageWriteWatch hclean
  | restoreAll => exact h.restoreAotGuestPageWriteWatches hclean
  | begin decoded faultAddress fromGuest keepSingleStep guestSource =>
    exact h.beginAotGuestWrite hclean
  | complete => exact h.completeAotGuestWrite

end

/-! ## The pending range -/

/-- The pending range covers the ranges begun since the last completion. -/
structure Covering (set : AotPageWriteWatchSet) (begun : List (ℕ × ℕ)) : Prop where
  inSpace : set.pendingEnd ≤ 2 ^ 32
  idle : set.pending = false → begun = []
  covered : ∀ range ∈ begun, set.pendingDestination.toNat ≤ range.1 ∧ range.2 ≤ set.pendingEnd

section
variable {protects : HostProtects} {set set' : AotPageWriteWatchSet} {begun : List (ℕ × ℕ)}

theorem Covering.congr (h : Covering set begun) (hpending : set'.pending = set.pending)
    (hdestination : set'.pendingDestination = set.pendingDestination)
    (hcount : set'.pendingByteCount = set.pendingByteCount) : Covering set' begun := by
  have hend : set'.pendingEnd = set.pendingEnd := by
    rw [AotPageWriteWatchSet.pendingEnd, AotPageWriteWatchSet.pendingEnd, hdestination, hcount]
  constructor
  · rw [hend]
    exact h.inSpace
  · rw [hpending]
    exact h.idle
  · rw [hend, hdestination]
    exact h.covered

theorem covering_resetPendingWrite (set : AotPageWriteWatchSet) :
    Covering (resetPendingWrite set) [] := by
  constructor
  · show (0 : Word).toNat + (0 : Word).toNat ≤ 2 ^ 32
    decide
  · intro _
    rfl
  · intro range hrange
    exact absurd hrange List.not_mem_nil

/-- A range that starts a pending write is the pending range. -/
theorem Covering.start (h : Covering set begun) (hidle : set.pending = false) {rangeBegin : Word}
    {rangeEnd : ℕ} (hbegin : rangeBegin.toNat < rangeEnd) (hend : rangeEnd ≤ 2 ^ 32)
    (hwhole : rangeEnd - rangeBegin.toNat < 2 ^ 32) (fromGuest keepSingleStep : Bool)
    (guestSource : Word) :
    Covering (joinPendingWrite rangeBegin rangeEnd fromGuest keepSingleStep guestSource set)
      ((rangeBegin.toNat, rangeEnd) :: begun) := by
  rw [h.idle hidle, joinPendingWrite, if_neg (by rw [hidle]; decide)]
  have hpend : rangeBegin.toNat + (BitVec.ofNat 32 (rangeEnd - rangeBegin.toNat)).toNat = rangeEnd := by
    rw [BitVec.toNat_ofNat, Nat.mod_eq_of_lt hwhole]
    omega
  constructor
  · exact hpend.le.trans hend
  · intro hfalse
    exact absurd (show true = false from hfalse) (by decide)
  · intro range hrange
    rw [List.mem_singleton] at hrange
    rw [hrange]
    exact ⟨le_refl _, hpend.ge⟩

/-- The joined range is the hull of the pending one and the new one. -/
theorem Covering.join (h : Covering set begun) (hpending : set.pending = true) {rangeBegin : Word}
    {rangeEnd : ℕ} (hend : rangeEnd ≤ 2 ^ 32) (hspan : ¬ SpansAll set rangeBegin rangeEnd)
    (fromGuest keepSingleStep : Bool) (guestSource : Word) :
    Covering (joinPendingWrite rangeBegin rangeEnd fromGuest keepSingleStep guestSource set)
      ((rangeBegin.toNat, rangeEnd) :: begun) := by
  obtain ⟨combined, hcombined⟩ : ∃ combined, combined =
      if rangeBegin < set.pendingDestination then rangeBegin else set.pendingDestination := ⟨_, rfl⟩
  have hmin : combined.toNat ≤ rangeBegin.toNat ∧ combined.toNat ≤ set.pendingDestination.toNat ∧
      (combined = rangeBegin ∨ combined = set.pendingDestination) := by
    rw [hcombined]
    by_cases hlt : rangeBegin < set.pendingDestination
    · rw [if_pos hlt]
      exact ⟨le_refl _, (BitVec.lt_def.mp hlt).le, Or.inl rfl⟩
    · rw [if_neg hlt]
      exact ⟨Nat.le_of_not_lt (fun hlt' => hlt (BitVec.lt_def.mpr hlt')), le_refl _, Or.inr rfl⟩
  have hle := h.inSpace
  -- the size of the hull has a 32-bit count, as it is not the whole address space
  have hcount : max set.pendingEnd rangeEnd - combined.toNat < 2 ^ 32 := by
    by_contra hge
    have hzero : combined = 0 := BitVec.eq_of_toNat_eq (by simp; omega)
    apply hspan
    refine ⟨hpending, ?_, by omega⟩
    rcases hmin.2.2 with heq | heq
    · exact Or.inr (heq.symm.trans hzero)
    · exact Or.inl (heq.symm.trans hzero)
  have hpend : set.pendingDestination.toNat ≤ set.pendingEnd := Nat.le_add_right _ _
  have hjoined : combined.toNat +
      (BitVec.ofNat 32 (max set.pendingEnd rangeEnd - combined.toNat)).toNat =
        max set.pendingEnd rangeEnd := by
    rw [BitVec.toNat_ofNat, Nat.mod_eq_of_lt hcount]
    omega
  rw [joinPendingWrite, if_pos hpending]
  dsimp only
  rw [← hcombined]
  constructor
  · exact hjoined.le.trans (max_le h.inSpace hend)
  · intro hfalse
    exact absurd (hpending.symm.trans hfalse) (by decide)
  · intro range hrange
    show combined.toNat ≤ range.1 ∧ range.2 ≤ combined.toNat + _
    rw [hjoined]
    rcases List.mem_cons.mp hrange with rfl | hrange
    · exact ⟨hmin.1, le_max_right _ _⟩
    · obtain ⟨hfirst, hlast⟩ := h.covered range hrange
      exact ⟨hmin.2.1.trans hfirst, hlast.trans (le_max_left _ _)⟩

theorem DecodedGuestWrite.rangeBegin_lt_rangeEnd (decoded : DecodedGuestWrite) (faultAddress : Word) :
    (decoded.rangeBegin faultAddress).toNat < decoded.rangeEnd faultAddress := by
  have hpos := decoded.pos
  unfold rangeEnd
  split_ifs
  · exact Nat.lt_add_of_pos_right (by decide)
  · exact Nat.lt_add_of_pos_right hpos

theorem DecodedGuestWrite.rangeEnd_sub_lt (decoded : DecodedGuestWrite) (faultAddress : Word) :
    decoded.rangeEnd faultAddress - (decoded.rangeBegin faultAddress).toNat < 2 ^ 32 := by
  unfold rangeEnd
  rw [Nat.add_sub_cancel_left]
  split_ifs
  · decide
  · exact decoded.byteCount.isLt

theorem ensureWriteWatch_covering {s : WatchState} (address : Word) (h : Covering s.set begun) :
    Covering (ensureWriteWatch protects s address).2.set begun := by
  unfold ensureWriteWatch
  dsimp only
  by_cases hwatched : (findWriteWatch s.set (aotGuestPage address)).isSome
  · rw [if_pos hwatched]
    exact h
  · rw [if_neg hwatched]
    cases s.memory (aotGuestPage address) with
    | none => exact h
    | some original =>
      dsimp only
      split_ifs
      · exact h.congr rfl rfl rfl
      · exact h.congr rfl rfl rfl
      · exact h

theorem ensureWriteWatches_covering {s : WatchState} (pages : List Word) (h : Covering s.set begun) :
    Covering (ensureWriteWatches protects pages s).2.set begun := by
  induction pages generalizing s with
  | nil => exact h
  | cons page pages ih =>
    have hstep := @ensureWriteWatch_covering protects _ _ page h
    rw [ensureWriteWatches]
    generalize ensureWriteWatch protects s page = result at hstep ⊢
    obtain ⟨ok, s'⟩ := result
    cases ok with
    | true => exact ih hstep
    | false => exact hstep

theorem beginAotGuestWrite_covering {s : WatchState} (h : Covering s.set begun)
    {decoded : DecodedGuestWrite} {faultAddress : Word} {fromGuest keepSingleStep : Bool}
    {guestSource : Word} (hclean : (WatchCall.begin decoded faultAddress fromGuest keepSingleStep
      guestSource).Clean protects s) :
    let result := beginAotGuestWrite protects decoded faultAddress fromGuest keepSingleStep
      guestSource s
    Covering result.2.set (if result.1 then ((decoded.rangeBegin faultAddress).toNat,
      decoded.rangeEnd faultAddress) :: begun else begun) := by
  dsimp only
  rcases @beginAotGuestWrite_cases protects decoded faultAddress fromGuest keepSingleStep
    guestSource s with hsame | ⟨hwatched, hend, admitted, -, hresult | ⟨hfit, hresult⟩⟩
  · rw [hsame]
    exact h
  · have hjoined : Covering (joinPendingWrite (decoded.rangeBegin faultAddress)
        (decoded.rangeEnd faultAddress) fromGuest keepSingleStep guestSource s.set)
        (((decoded.rangeBegin faultAddress).toNat, decoded.rangeEnd faultAddress) :: begun) := by
      cases hpending : s.set.pending with
      | false =>
        exact h.start hpending (decoded.rangeBegin_lt_rangeEnd faultAddress) hend
          (decoded.rangeEnd_sub_lt faultAddress) fromGuest keepSingleStep guestSource
      | true =>
        obtain ⟨-, hspan⟩ | ⟨hidle, -⟩ := hclean hwatched hend
        · exact h.join hpending hend hspan fromGuest keepSingleStep guestSource
        · exact absurd (hpending.symm.trans hidle) (by decide)
    generalize joinPendingWrite _ _ _ _ _ _ = joined at hjoined hresult
    have hset : Covering (admitted.foldl admitPage { s with set := joined }).set
        (((decoded.rangeBegin faultAddress).toNat, decoded.rangeEnd faultAddress) :: begun) := by
      rw [foldl_admitPage_set]
      exact hjoined.congr rfl rfl rfl
    rw [hresult]
    split_ifs
    · exact hset
    · exact ⟨hset.inSpace, fun hidle => absurd (hset.idle hidle) (List.cons_ne_nil _ _),
        fun range hrange => hset.covered range (List.mem_cons_of_mem _ hrange)⟩
  · obtain ⟨hfits, -⟩ | ⟨hidle, -⟩ := hclean hwatched hend
    · exact absurd hfits hfit
    · rw [hresult, h.idle hidle]
      exact covering_resetPendingWrite _

/-- Every clean operation keeps the begun ranges covered. -/
theorem Covering.apply {h : WatchHistory} (hcover : Covering h.state.set h.begun) {call : WatchCall}
    (hclean : call.Clean protects h.state) :
    Covering (h.step protects call).state.set (h.step protects call).begun := by
  cases call with
  | install placement selectedPages =>
    cases selectedPages with
    | none => exact ensureWriteWatches_covering _ hcover
    | some pages => exact ensureWriteWatches_covering pages hcover
  | remove address =>
    show Covering (removeAotPageWriteWatch protects h.state address).set h.begun
    unfold removeAotPageWriteWatch
    dsimp only
    cases findWriteWatch h.state.set (aotGuestPage address) with
    | none => exact hcover
    | some watch => exact hcover.congr rfl rfl rfl
  | restoreAll =>
    exact ⟨hcover.inSpace, fun _ => hcover.idle hclean.1, hcover.covered⟩
  | begin decoded faultAddress fromGuest keepSingleStep guestSource =>
    exact beginAotGuestWrite_covering hcover hclean
  | complete =>
    show Covering (completeAotGuestWrite protects h.state).2.set
      (if (completeAotGuestWrite protects h.state).1.isSome then [] else h.begun)
    rcases @completeAotGuestWrite_cases protects h.state with heq | heq | ⟨-, -, heq⟩
    · rw [heq]
      exact hcover
    · rw [heq]
      exact hcover.congr rfl rfl rfl
    · rw [heq]
      exact covering_resetPendingWrite _

end

/-! ## The protocol -/

/-- What the watches promise of a state: sorted watches, pending pages among them, watched pages
protected unless pending, and begun ranges reported. -/
structure WatchesHold (h : WatchHistory) : Prop where
  sorted : h.state.set.watches.Pairwise fun a b => a.guestPage < b.guestPage
  pendingWatched : ∀ page ∈ h.state.set.pendingPages,
    ∃ watch ∈ h.state.set.watches, watch.guestPage = page
  protectedPages : ∀ watch ∈ h.state.set.watches, watch.guestPage ∉ h.state.set.pendingPages →
    h.state.memory watch.guestPage = some .executeRead
  reported : ∀ protects completion,
    (completeAotGuestWrite protects h.state).1 = some completion → ∀ range ∈ h.begun,
      completion.destination.toNat ≤ range.1 ∧
        range.2 ≤ completion.destination.toNat + completion.byteCount.toNat

/-- The pages an operation stops watching get back the protection they had before they were
watched. -/
def GivesBack (protects : HostProtects) (call : WatchCall) (h : WatchHistory) : Prop :=
  ∀ page, (∃ watch ∈ h.state.set.watches, watch.guestPage = page) →
    (∀ watch ∈ (call.apply protects h.state).set.watches, watch.guestPage ≠ page) →
    (call.apply protects h.state).memory page = h.unwatched page

theorem WatchRun.invariant {h : WatchHistory}
    (hrun : WatchRun (fun protects call s => call.Clean protects s) h) :
    Watching h.state h.unwatched ∧ Covering h.state.set h.begun := by
  induction hrun with
  | start memory =>
    constructor
    · exact ⟨List.Pairwise.nil, by simp, fun _ => rfl, by simp [findWriteWatch, find],
        by simp [findWriteWatch, find], fun _ _ => rfl⟩
    · exact covering_resetPendingWrite {}
  | @step h protects call _ hcond ih =>
    have hwatching := ih.1.apply hcond
    have hsame : (h.step protects call).unwatched = h.unwatched := by
      funext page
      show (if _ then _ else _) = _
      cases hfind : findWriteWatch (call.apply protects h.state).set page with
      | some watch => exact if_pos rfl
      | none => exact (if_neg (by decide)).trans (hwatching.free page hfind)
    rw [hsame]
    exact ⟨hwatching, ih.2.apply hcond⟩

theorem writeWatches_hold {h : WatchHistory}
    (hrun : WatchRun (fun protects call s => call.Clean protects s) h) :
    WatchesHold h ∧
      ∀ protects call, WatchCall.Clean protects call h.state → GivesBack protects call h := by
  obtain ⟨hwatching, hcover⟩ := hrun.invariant
  constructor
  · constructor
    · exact hwatching.sorted
    · intro page hpage
      obtain ⟨watch, hwatch⟩ := Option.isSome_iff_exists.mp (hwatching.pending page hpage)
      exact ⟨watch, (findWriteWatch_eq_some hwatching.sorted).mp hwatch⟩
    · intro watch hmem hnot
      apply hwatching.guarded _ _ hnot
      rw [(findWriteWatch_eq_some hwatching.sorted).mpr ⟨hmem, rfl⟩]
      rfl
    · intro protects completion hcompletion range hrange
      rcases @completeAotGuestWrite_cases protects h.state with heq | heq | ⟨-, -, heq⟩
      · rw [heq] at hcompletion
        exact absurd hcompletion.symm (Option.some_ne_none _)
      · rw [heq] at hcompletion
        exact absurd hcompletion.symm (Option.some_ne_none _)
      · rw [heq] at hcompletion
        rw [← Option.some.inj hcompletion]
        exact hcover.covered range hrange
  · intro protects call hclean page _ hgone
    apply (hwatching.apply hclean).free
    rw [findWriteWatch, find_eq_none]
    intro watch hmem heq
    exact hgone watch hmem (BitVec.eq_of_toNat_eq heq)

/-- A host that never refuses. -/
def hostAllows : HostProtects := fun _ _ => true

/-- One committed page, watched. -/
def watchedPage (protection : MemoryProtection) : WatchHistory :=
  let memory : Word → Option MemoryProtection :=
    fun page => if page = 0x401000 then some protection else none
  WatchHistory.step hostAllows (.install { memory := fun _ => 0 } (some [0x401000]))
    { state := { memory := memory }, unwatched := memory }

/-- A four-byte write to the page, begun and not completed. -/
theorem four_pos : 0 < (4 : Word).toNat := by decide

def pendingPage : WatchHistory :=
  WatchHistory.step hostAllows (.begin ⟨4, false, four_pos⟩ 0x401FFE true false 0x402000)
    (watchedPage .executeReadWrite)

theorem writeWatches_hold_pending :
    pendingPage.state.set.pendingPages = [0x401000] ∧ pendingPage.begun = [(0x401FFE, 0x402002)] ∧
      WatchesHold pendingPage := by
  refine ⟨by decide +kernel, by decide +kernel, (writeWatches_hold ?_).1⟩
  apply WatchRun.step
  · exact WatchRun.step _ _ (WatchRun.start _) trivial
  · intro _ _
    left
    refine ⟨⟨by decide +kernel, fun _ _ _ => rfl⟩, fun hspan => ?_⟩
    exact absurd hspan.1 (by decide +kernel)

/-- A read-write page whose watch is removed comes back executable, and a pending page whose watch
is removed stays pending. -/
theorem writeWatches_lose_protection :
    (WatchRun (fun _ _ _ => True) (watchedPage .readWrite) ∧
      ¬ GivesBack hostAllows (.remove 0x401000) (watchedPage .readWrite)) ∧
    (WatchRun (fun _ _ _ => True) (pendingPage.step hostAllows (.remove 0x401000)) ∧
      ¬ WatchesHold (pendingPage.step hostAllows (.remove 0x401000))) := by
  have hwatched : ∀ protection, WatchRun (fun _ _ _ => True) (watchedPage protection) :=
    fun _ => WatchRun.step _ _ (WatchRun.start _) trivial
  refine ⟨⟨hwatched _, fun hback => ?_⟩, WatchRun.step _ _ (WatchRun.step _ _ (hwatched _) trivial)
    trivial, fun hhold => ?_⟩
  · have hmemory := hback 0x401000 (by decide +kernel) (by decide +kernel)
    exact absurd hmemory (by decide +kernel)
  · have hpending := hhold.pendingWatched 0x401000 (by decide +kernel)
    exact absurd hpending (by decide +kernel)

end Repiu.Engine
