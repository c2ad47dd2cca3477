import Repiu.Engine.DpmiAllocation

/-!
# Selectors and what they translate to

Any order of allocations and registrations over one selector allocator and one
selector table (`selector_table.cpp`), and the linear address that
`TranslateSelectorOffset` gives for a range of a segment.
-/

namespace Repiu.Engine

/-! ## Translation -/

/-- `InitializeSelectorTable`. -/
def initializeSelectorTable : SelectorTable := { valid := true, descriptors := [] }

/-- `TranslateSelectorOffset`.  The sums are of 64 bits in the source. -/
def translateSelectorOffset (table : SelectorTable) (selector : BitVec 16) (offset byteCount : Word) : Option Word :=
  if byteCount = 0 then none
  else
    match findDescriptor table selector with
    | none => none
    | some descriptor =>
      let lastOffset := offset.toNat + byteCount.toNat - 1
      let linear := descriptor.base.toNat + offset.toNat
      if descriptor.limit.toNat < lastOffset ∨ 0xFFFFFFFF < linear ∨ 0xFFFFFFFF < linear + byteCount.toNat - 1 then
        none
      else some (BitVec.ofNat 32 linear)

/-- The range lies within the limit of the segment, and its bytes have linear addresses. -/
structure GuestDescriptor.Covers (descriptor : GuestDescriptor) (offset byteCount : Word) : Prop where
  within : offset.toNat + byteCount.toNat ≤ descriptor.limit.toNat + 1
  addressed : descriptor.base.toNat + offset.toNat + byteCount.toNat ≤ 2 ^ 32

/-! ## Runs -/

/-- One use of the allocator or the table. -/
inductive SelectorEvent
  | allocate
  | register (descriptor : GuestDescriptor)

/-- The allocator, the selectors that it has handed out so far, the last one at the end, and the table. -/
structure SelectorState where
  allocator : SelectorAllocator
  handed : List (BitVec 16) := []
  table : SelectorTable := initializeSelectorTable

namespace SelectorState

/-- Where `InitializeSelectorAllocator` refuses the selector, the allocator stays as it is declared. -/
def start (firstSelector : BitVec 16) : SelectorState where
  allocator := (initializeSelectorAllocator firstSelector).getD
    { valid := false, nextSelector := 0, allocatedCount := 0 }

/-- A refused allocation or registration changes nothing. -/
def step (s : SelectorState) : SelectorEvent → SelectorState
  | .allocate =>
    match allocateSelector s.allocator with
    | none => s
    | some (selector, allocator) => { s with allocator := allocator, handed := s.handed ++ [selector] }
  | .register descriptor =>
    match registerDescriptor s.table descriptor with
    | none => s
    | some table => { s with table := table }

/-- The state after a sequence of allocations and registrations. -/
def run (firstSelector : BitVec 16) (events : List SelectorEvent) : SelectorState :=
  events.foldl step (start firstSelector)

end SelectorState

/-- The descriptor last registered for a selector; selector 0 is never registered. -/
def latestRegistration (events : List SelectorEvent) (selector : BitVec 16) : Option GuestDescriptor :=
  events.foldl
    (fun latest event =>
      match event with
      | .allocate => latest
      | .register descriptor =>
        if descriptor.selector = selector ∧ selector ≠ 0 then some descriptor else latest)
    none

/-! ## The table -/

/-- The descriptor of a selector, present or not. -/
def descriptorOf (selector : BitVec 16) (descriptors : List GuestDescriptor) : Option GuestDescriptor :=
  descriptors.find? fun descriptor => descriptor.selector = selector

theorem descriptorOf_placeDescriptor (descriptor : GuestDescriptor) (selector : BitVec 16)
    (l : List GuestDescriptor) :
    descriptorOf selector (placeDescriptor descriptor l) =
      if descriptor.selector = selector then some descriptor else descriptorOf selector l := by
  induction l with
  | nil =>
    by_cases hsel : descriptor.selector = selector
    · simp [placeDescriptor, descriptorOf, hsel]
    · simp [placeDescriptor, descriptorOf, hsel]
  | cons existing rest ih =>
    unfold descriptorOf at ih ⊢
    rw [placeDescriptor]
    by_cases hsame : existing.selector = descriptor.selector
    · rw [if_pos hsame]
      by_cases hsel : descriptor.selector = selector
      · simp [hsel]
      · simp [hsame, hsel]
    · rw [if_neg hsame]
      by_cases hsel : existing.selector = selector
      · have hne : descriptor.selector ≠ selector := fun heq => hsame (hsel.trans heq.symm)
        simp [hsel, hne]
      · simp [hsel, ih]

/-- With one descriptor a selector, `FindDescriptor` gives the selector's own, if it is present. -/
theorem findDescriptor_eq {table : SelectorTable} (hvalid : table.valid = true)
    (hnodup : (table.descriptors.map (·.selector)).Nodup) {selector : BitVec 16} (hselector : selector ≠ 0) :
    findDescriptor table selector =
      (descriptorOf selector table.descriptors).filter fun descriptor => descriptor.present := by
  have hfind : ∀ l : List GuestDescriptor, (l.map (·.selector)).Nodup →
      (l.find? fun descriptor => descriptor.selector = selector && descriptor.present) =
        (descriptorOf selector l).filter fun descriptor => descriptor.present := by
    intro l hl
    induction l with
    | nil => rfl
    | cons existing rest ih =>
      rw [List.map_cons, List.nodup_cons] at hl
      unfold descriptorOf at ih ⊢
      by_cases hsel : existing.selector = selector
      · cases hpresent : existing.present with
        | true => simp [hsel, hpresent, Option.filter]
        | false =>
          -- the selector is not in the rest either
          have hrest : (rest.find? fun descriptor => decide (descriptor.selector = selector)) = none := by
            rw [List.find?_eq_none]
            intro descriptor hmem hsame
            apply hl.1
            rw [hsel, ← of_decide_eq_true hsame]
            exact List.mem_map_of_mem hmem
          simp [hsel, hpresent, ih hl.2, hrest, Option.filter]
      · simp [hsel, ih hl.2]
  rw [findDescriptor, if_neg]
  · exact hfind _ hnodup
  · rintro (hinvalid | hzero)
    · exact hinvalid hvalid
    · exact hselector hzero

/-! ## What holds after a run -/

namespace SelectorState

/-- What holds after a run: selectors are handed out in order, and the table holds the latest
registration of each selector and nothing else. -/
structure Sound (s : SelectorState) (events : List SelectorEvent) : Prop where
  ordered : s.handed.Pairwise fun a b => a.toNat < b.toNat
  below : ∀ selector ∈ s.handed, selector.toNat < s.allocator.nextSelector.toNat
  aligned : s.allocator.valid = true → s.allocator.Aligned
  valid : s.table.valid = true
  single : (s.table.descriptors.map (·.selector)).Nodup
  latest : ∀ selector, descriptorOf selector s.table.descriptors = latestRegistration events selector

theorem sound_start (firstSelector : BitVec 16) : Sound (start firstSelector) [] := by
  refine ⟨List.Pairwise.nil, by simp [start], ?_, rfl, List.nodup_nil, fun _ => rfl⟩
  intro hvalid
  unfold start at hvalid ⊢
  cases hfirst : initializeSelectorAllocator firstSelector with
  | none =>
    rw [hfirst] at hvalid
    cases hvalid
  | some allocator => exact .of_fresh hfirst

variable {s : SelectorState} {events : List SelectorEvent}

theorem latestRegistration_allocate (events : List SelectorEvent) (selector : BitVec 16) :
    latestRegistration (events ++ [.allocate]) selector = latestRegistration events selector := by
  simp only [latestRegistration, List.foldl_append, List.foldl_cons, List.foldl_nil]

theorem latestRegistration_register (events : List SelectorEvent) (descriptor : GuestDescriptor)
    (selector : BitVec 16) :
    latestRegistration (events ++ [.register descriptor]) selector =
      if descriptor.selector = selector ∧ selector ≠ 0 then some descriptor
      else latestRegistration events selector := by
  simp only [latestRegistration, List.foldl_append, List.foldl_cons, List.foldl_nil]

theorem Sound.allocate (h : Sound s events) : Sound (s.step .allocate) (events ++ [.allocate]) := by
  have hlatest := h.latest
  have hhistory := latestRegistration_allocate events
  cases halloc : allocateSelector s.allocator with
  | none =>
    simp only [step, halloc]
    exact { h with latest := fun selector => (hlatest selector).trans (hhistory selector).symm }
  | some next =>
    have hvalid : s.allocator.valid = true := by
      by_contra hnot
      rw [allocateSelector, if_pos (Or.inl (by simpa using hnot))] at halloc
      cases halloc
    have haligned := h.aligned hvalid
    have hleft : 0 < s.allocator.left := by
      apply Nat.pos_of_ne_zero
      intro hnone
      rw [SelectorAllocator.Aligned.allocateSelector_none hnone] at halloc
      cases halloc
    obtain ⟨allocator, hsome, haligned', hnext, -⟩ := haligned.allocateSelector_some hleft
    rw [halloc, Option.some.injEq] at hsome
    simp only [step, halloc, hsome]
    refine ⟨?_, ?_, fun _ => haligned', h.valid, h.single, ?_⟩
    · rw [List.pairwise_append]
      refine ⟨h.ordered, List.pairwise_singleton _ _, ?_⟩
      intro a ha b hb
      rw [List.mem_singleton.mp hb]
      exact h.below a ha
    · intro selector hmem
      rw [hnext]
      rcases List.mem_append.mp hmem with hold | hnew
      · have := h.below selector hold
        omega
      · rw [List.mem_singleton.mp hnew]
        omega
    · exact fun selector => (hlatest selector).trans (hhistory selector).symm

theorem Sound.register (h : Sound s events) (descriptor : GuestDescriptor) :
    Sound (s.step (.register descriptor)) (events ++ [.register descriptor]) := by
  by_cases hzero : descriptor.selector = 0
  · have hnone : registerDescriptor s.table descriptor = none := if_pos (Or.inr hzero)
    simp only [step, hnone]
    refine { h with latest := fun selector => ?_ }
    rw [latestRegistration_register, if_neg, h.latest]
    rintro ⟨hsame, hselector⟩
    exact hselector (hsame.symm.trans hzero)
  · have hsome := registerDescriptor_some h.valid hzero
    simp only [step, hsome]
    refine ⟨h.ordered, h.below, h.aligned, h.valid, nodup_placeDescriptor h.single, ?_⟩
    intro selector
    rw [latestRegistration_register, descriptorOf_placeDescriptor, h.latest]
    by_cases hsame : descriptor.selector = selector
    · rw [if_pos hsame, if_pos ⟨hsame, fun heq => hzero (hsame.trans heq)⟩]
    · rw [if_neg hsame, if_neg fun hand => hsame hand.1]

theorem sound_run (firstSelector : BitVec 16) (events : List SelectorEvent) :
    Sound (run firstSelector events) events := by
  induction events using List.reverseRecOn with
  | nil => exact sound_start firstSelector
  | append_singleton events event ih =>
    rw [run, List.foldl_append, List.foldl_cons, List.foldl_nil]
    cases event with
    | allocate => exact ih.allocate
    | register descriptor => exact ih.register descriptor

theorem latestRegistration_zero (events : List SelectorEvent) : latestRegistration events 0 = none := by
  induction events using List.reverseRecOn with
  | nil => rfl
  | append_singleton events event ih =>
    cases event with
    | allocate => rw [latestRegistration_allocate, ih]
    | register descriptor =>
      rw [latestRegistration_register, if_neg, ih]
      exact fun hand => hand.2 rfl

/-- What a translation reads of a sound state. -/
theorem Sound.findDescriptor_eq_some (h : Sound s events) {selector : BitVec 16} {descriptor : GuestDescriptor} :
    findDescriptor s.table selector = some descriptor ↔
      latestRegistration events selector = some descriptor ∧ descriptor.present = true := by
  by_cases hzero : selector = 0
  · rw [findDescriptor, if_pos (Or.inr hzero), hzero, latestRegistration_zero]
    simp
  · rw [findDescriptor_eq h.valid h.single hzero, h.latest, Option.filter_eq_some_iff]

end SelectorState

/-- A translation gives the base plus the offset, where the range is not empty and the descriptor
covers it. -/
theorem translateSelectorOffset_eq_some {table : SelectorTable} {selector : BitVec 16}
    {offset byteCount linear : Word} :
    translateSelectorOffset table selector offset byteCount = some linear ↔
      0 < byteCount.toNat ∧ ∃ descriptor, findDescriptor table selector = some descriptor ∧
        descriptor.Covers offset byteCount ∧ linear = descriptor.base + offset := by
  unfold translateSelectorOffset
  by_cases hzero : byteCount = 0
  · rw [if_pos hzero]
    simp [hzero]
  · have hpos : 0 < byteCount.toNat := by
      apply Nat.pos_of_ne_zero
      exact fun hnat => hzero (BitVec.eq_of_toNat_eq hnat)
    rw [if_neg hzero]
    cases hfind : findDescriptor table selector with
    | none => simp
    | some descriptor =>
      dsimp only
      have hsum : BitVec.ofNat 32 (descriptor.base.toNat + offset.toNat) = descriptor.base + offset := by
        rw [BitVec.ofNat_add, BitVec.ofNat_toNat, BitVec.ofNat_toNat, BitVec.setWidth_eq, BitVec.setWidth_eq]
      by_cases hcovers : descriptor.Covers offset byteCount
      · have hwithin := hcovers.within
        have haddressed := hcovers.addressed
        rw [if_neg (by omega), Option.some.injEq, hsum]
        constructor
        · rintro rfl
          exact ⟨hpos, descriptor, rfl, hcovers, rfl⟩
        · rintro ⟨-, descriptor', hsame, -, heq⟩
          rw [Option.some.injEq] at hsame
          rw [heq, hsame]
      · rw [if_pos]
        · constructor
          · intro hnone
            cases hnone
          · rintro ⟨-, descriptor', hsame, hcovers', -⟩
            rw [Option.some.injEq] at hsame
            rw [← hsame] at hcovers'
            exact absurd hcovers' hcovers
        · by_contra hnot
          exact hcovers ⟨by omega, by omega⟩

/-! ## The laws of selectors -/

/-- After any allocations and registrations: the selectors handed out increase, so none comes twice
and the allocator never wraps; the table has one descriptor a selector; and a range translates
exactly when it is not empty and the latest registration of its selector is present and covers it. -/
theorem selectors_translate (firstSelector : BitVec 16) (events : List SelectorEvent) :
    let s := SelectorState.run firstSelector events
    (s.handed.Pairwise fun a b => a.toNat < b.toNat) ∧
    (s.table.descriptors.map (·.selector)).Nodup ∧
    ∀ (selector : BitVec 16) (offset byteCount linear : Word),
      translateSelectorOffset s.table selector offset byteCount = some linear ↔
        0 < byteCount.toNat ∧ ∃ descriptor, latestRegistration events selector = some descriptor ∧
          descriptor.present = true ∧ descriptor.Covers offset byteCount ∧ linear = descriptor.base + offset := by
  have hsound := SelectorState.sound_run firstSelector events
  refine ⟨hsound.ordered, hsound.single, ?_⟩
  intro selector offset byteCount linear
  rw [translateSelectorOffset_eq_some]
  simp only [hsound.findDescriptor_eq_some, and_assoc]

/-- One present segment of a page at the start of the address space. -/
def samplePageSegment : SelectorEvent := .register { selector := 0xA4, base := 0, limit := 0xFFF }

/-- An empty range lies within every limit, but does not translate. -/
theorem translateSelectorOffset_empty_range :
    ∃ descriptor, latestRegistration [samplePageSegment] 0xA4 = some descriptor ∧ descriptor.present = true ∧
      descriptor.Covers 0 0 ∧
      translateSelectorOffset (SelectorState.run 0xA4 [samplePageSegment]).table 0xA4 0 0 = none :=
  ⟨{ selector := 0xA4, base := 0, limit := 0xFFF }, by decide, rfl, ⟨by decide, by decide⟩, by decide⟩

end Repiu.Engine
