import Repiu.Engine.DpmiServices

/-!
# The laws of DPMI allocation

Over any sequence of INT 31h calls the blocks of DOS memory stay apart, no selector
is handed out twice, and it is known which failing calls leave everything as it was.
-/

namespace Repiu.Engine

/-! ## Selectors -/

/-- How many selectors an allocator still has. -/
def SelectorAllocator.left (allocator : SelectorAllocator) : ℕ :=
  if allocator.nextSelector.toNat ≤ 0xFFF4 then (0xFFF4 - allocator.nextSelector.toNat) / 8 + 1 else 0

/-- An allocator that `initializeSelectorAllocator` made, or that came from one. -/
structure SelectorAllocator.Aligned (allocator : SelectorAllocator) : Prop where
  valid : allocator.valid = true
  next : allocator.nextSelector.toNat % 8 = 4

namespace SelectorAllocator.Aligned

variable {allocator : SelectorAllocator}

theorem of_fresh {first : BitVec 16} (h : initializeSelectorAllocator first = some allocator) : allocator.Aligned := by
  unfold initializeSelectorAllocator at h
  split at h
  case isTrue => cases h
  case isFalse hfirst =>
    cases h
    push Not at hfirst
    have hmask : (first &&& 0x07).toNat = first.toNat % 8 := by
      rw [BitVec.toNat_and]
      exact Nat.and_two_pow_sub_one_eq_mod first.toNat 3
    refine ⟨rfl, ?_⟩
    show first.toNat % 8 = 4
    rw [← hmask, hfirst.2]
    rfl

theorem allocateSelector_none (hleft : allocator.left = 0) : allocateSelector allocator = none := by
  unfold SelectorAllocator.left at hleft
  rw [allocateSelector, if_pos]
  refine .inr (.inr ?_)
  show 0xFFF4 < allocator.nextSelector.toNat
  by_contra hle
  rw [if_pos (by omega)] at hleft
  omega

/-- A selector is handed out, and the next one lies eight above it. -/
theorem allocateSelector_some (h : allocator.Aligned) (hleft : 0 < allocator.left) :
    ∃ next, allocateSelector allocator = some (allocator.nextSelector, next) ∧ next.Aligned ∧
      next.nextSelector.toNat = allocator.nextSelector.toNat + 8 ∧ next.left + 1 = allocator.left := by
  have hnext := h.next
  have hle : allocator.nextSelector.toNat ≤ 0xFFF4 := by
    unfold SelectorAllocator.left at hleft
    split at hleft
    · assumption
    · omega
  have hsum : (allocator.nextSelector + 8).toNat = allocator.nextSelector.toNat + 8 := by
    rw [BitVec.toNat_add]
    show (allocator.nextSelector.toNat + 8) % 2 ^ 16 = _
    omega
  refine ⟨{ allocator with
    nextSelector := allocator.nextSelector + 8, allocatedCount := allocator.allocatedCount + 1 }, ?_, ?_, hsum, ?_⟩
  · rw [allocateSelector, if_neg]
    rintro (hinvalid | hzero | hlast)
    · rw [h.valid] at hinvalid
      cases hinvalid
    · rw [hzero] at hnext
      cases hnext
    · have : 0xFFF4 < allocator.nextSelector.toNat := hlast
      omega
  · refine ⟨h.valid, ?_⟩
    rw [hsum]
    omega
  · unfold SelectorAllocator.left
    rw [hsum, if_pos hle]
    split <;> omega

theorem nextSelector_ne_zero (h : allocator.Aligned) : allocator.nextSelector ≠ 0 := by
  intro hzero
  have hnext := h.next
  rw [hzero] at hnext
  cases hnext

end SelectorAllocator.Aligned

theorem registerDescriptor_some {table : SelectorTable} {descriptor : GuestDescriptor} (hvalid : table.valid = true)
    (hselector : descriptor.selector ≠ 0) :
    registerDescriptor table descriptor =
      some { table with descriptors := placeDescriptor descriptor table.descriptors } := by
  rw [registerDescriptor, if_neg]
  rintro (hinvalid | hzero)
  · rw [hvalid] at hinvalid
    cases hinvalid
  · exact hselector hzero

theorem registerDescriptor_valid {table table' : SelectorTable} {descriptor : GuestDescriptor}
    (h : registerDescriptor table descriptor = some table') : table'.valid = table.valid := by
  unfold registerDescriptor at h
  split at h
  · cases h
  · cases h
    rfl

namespace DpmiState

variable {s : DpmiState}

/-- The loop of service 0000 takes as many selectors as it can, and touches nothing else. -/
theorem allocateDescriptors_spec (count : ℕ) (halloc : s.allocator.Aligned) (hvalid : s.table.valid = true) :
    (allocateDescriptors count s).2 = decide (count ≤ s.allocator.left) ∧
    (allocateDescriptors count s).1.allocator.Aligned ∧
    (allocateDescriptors count s).1.table.valid = true ∧
    (allocateDescriptors count s).1.allocator.nextSelector.toNat =
      s.allocator.nextSelector.toNat + 8 * min count s.allocator.left ∧
    (allocateDescriptors count s).1.blocks = s.blocks ∧ (allocateDescriptors count s).1.bumpOffset = s.bumpOffset := by
  induction count generalizing s with
  | zero => simp [allocateDescriptors, halloc, hvalid]
  | succ count ih =>
    by_cases hleft : s.allocator.left = 0
    · rw [allocateDescriptors, SelectorAllocator.Aligned.allocateSelector_none hleft]
      refine ⟨?_, halloc, hvalid, by rw [hleft]; rfl, rfl, rfl⟩
      rw [hleft]
      rfl
    · obtain ⟨next, hsome, hnext, hstep, hless⟩ := halloc.allocateSelector_some (Nat.pos_of_ne_zero hleft)
      rw [allocateDescriptors, hsome]
      dsimp only
      rw [registerDescriptor_some (by exact hvalid) (by exact halloc.nextSelector_ne_zero)]
      obtain ⟨hok, haligned, hvalid', hselector, hblocks, hbump⟩ :=
        @ih (setTable { s with allocator := next } { s.table with
          descriptors := placeDescriptor
            { selector := s.allocator.nextSelector, base := 0, limit := 0, flags := 0x0092 } s.table.descriptors })
          hnext hvalid
      refine ⟨?_, haligned, hvalid', ?_, hblocks, hbump⟩
      · refine hok.trans ?_
        rw [decide_eq_decide]
        show count ≤ next.left ↔ _
        omega
      · refine hselector.trans ?_
        show next.nextSelector.toNat + 8 * min count next.left = _
        omega

/-! ## Blocks -/

/-- The bytes of two blocks do not meet. -/
def Apart (a b : RealModeBlock) : Prop :=
  a.offset.toNat + a.size.toNat ≤ b.offset.toNat ∨ b.offset.toNat + b.size.toNat ≤ a.offset.toNat

/-- What holds of the allocations in every state. -/
structure Laws (s : DpmiState) : Prop where
  valid : s.table.valid = true
  allocator : s.allocator.Aligned
  bump_aligned : s.bumpOffset.toNat % 16 = 0
  bump_le : s.bumpOffset.toNat ≤ kDosLowMemorySize
  below : ∀ (i : ℕ) (block : RealModeBlock), s.blocks[i]? = some block → block.active = true →
    block.offset.toNat % 16 = 0 ∧ block.offset.toNat + block.size.toNat ≤ s.bumpOffset.toNat
  apart : ∀ (i j : ℕ) (a b : RealModeBlock), i ≠ j → s.blocks[i]? = some a → s.blocks[j]? = some b → a.active = true → b.active = true →
    Apart a b

/-- The table, the allocator, the blocks and the bump offset are the same. -/
structure SameAllocations (s s' : DpmiState) : Prop where
  table : s'.table = s.table
  allocator : s'.allocator = s.allocator
  blocks : s'.blocks = s.blocks
  bumpOffset : s'.bumpOffset = s.bumpOffset

theorem SameAllocations.refl (s : DpmiState) : SameAllocations s s := ⟨rfl, rfl, rfl, rfl⟩

theorem table_synced (s : DpmiState) : s.synced.table = s.table := by
  unfold synced table syncGuestSegmentsFromShadow
  cases s.segments.shadowSelectors <;> rfl

namespace Laws

variable {s' : DpmiState}

/-- The laws of the blocks depend on nothing else. -/
theorem of_blocks (h : Laws s) (hvalid : s'.table.valid = true) (halloc : s'.allocator.Aligned)
    (hblocks : s'.blocks = s.blocks) (hbump : s'.bumpOffset = s.bumpOffset) : Laws s' where
  valid := hvalid
  allocator := halloc
  bump_aligned := by rw [hbump]; exact h.bump_aligned
  bump_le := by rw [hbump]; exact h.bump_le
  below := by rw [hblocks, hbump]; exact h.below
  apart := by rw [hblocks]; exact h.apart

theorem synced (h : Laws s) : Laws s.synced :=
  h.of_blocks (by rw [table_synced]; exact h.valid) h.allocator rfl rfl

/-- A block that is freed, or one that begins at the bump offset, keeps the blocks apart. -/
theorem set_block (h : Laws s) {i : ℕ} {new : RealModeBlock} {bump : Word} (hvalid : s'.table.valid = true)
    (halloc : s'.allocator.Aligned) (hblocks : s'.blocks = s.blocks.set i new) (hbump : s'.bumpOffset = bump)
    (haligned : bump.toNat % 16 = 0) (hlow : bump.toNat ≤ kDosLowMemorySize)
    (hle : s.bumpOffset.toNat ≤ bump.toNat)
    (hnew : new.active = true → new.offset.toNat % 16 = 0 ∧ s.bumpOffset.toNat ≤ new.offset.toNat ∧
      new.offset.toNat + new.size.toNat ≤ bump.toNat) : Laws s' where
  valid := hvalid
  allocator := halloc
  bump_aligned := by rw [hbump]; exact haligned
  bump_le := by rw [hbump]; exact hlow
  below := by
    intro j block hblock hactive
    rw [hblocks, List.getElem?_set] at hblock
    rw [hbump]
    split at hblock
    · split at hblock
      · cases hblock
        exact ⟨(hnew hactive).1, (hnew hactive).2.2⟩
      · cases hblock
    · have := h.below j block hblock hactive
      omega
  apart := by
    intro j k a b hne ha hb hactive hactive'
    rw [hblocks, List.getElem?_set] at ha hb
    split at ha
    case isTrue hj =>
      split at ha
      case isFalse => cases ha
      case isTrue =>
        cases ha
        split at hb
        case isTrue hk => exact absurd (hj.symm.trans hk) hne
        case isFalse =>
          have := h.below k b hb hactive'
          have := hnew hactive
          right
          omega
    case isFalse =>
      split at hb
      case isTrue hk =>
        split at hb
        case isFalse => cases hb
        case isTrue =>
          cases hb
          have := h.below j a ha hactive
          have := hnew hactive'
          left
          omega
      case isFalse => exact h.apart j k a b hne ha hb hactive hactive'

end Laws

/-! ## The services -/

end DpmiState

namespace DpmiRegisters

@[simp] theorem carry_succeeds (r : DpmiRegisters) : r.succeeds.carry = false := by
  simp [carry, succeeds]

@[simp] theorem carry_failsWith (r : DpmiRegisters) (error : BitVec 16) : (r.failsWith error).carry = true := by
  simp [carry, failsWith]

theorem setWidth_withLow (x : Word) (low : BitVec 16) : (withLow x low).setWidth 16 = low := by
  apply BitVec.eq_of_getLsbD_eq
  intro i hi
  simp only [withLow, BitVec.getLsbD_setWidth, BitVec.getLsbD_or, BitVec.getLsbD_and, hi, decide_true, Bool.true_and]
  have hmask : (0xFFFF0000 : Word).getLsbD i = false := by
    interval_cases i <;> rfl
  rw [hmask, Bool.and_false, Bool.false_or, show decide (i < 32) = true by simp; omega, Bool.true_and]

end DpmiRegisters

/-- Selectors that follow each other in the allocator's step. -/
def selectorsFrom (first : BitVec 16) (count : ℕ) : List (BitVec 16) :=
  (List.range count).map fun i => first + BitVec.ofNat 16 (8 * i)

/-- The selectors that a call hands out. -/
def returnedSelectors (r r' : DpmiRegisters) : List (BitVec 16) :=
  if r'.carry then []
  else if r.ax = 0x0000 then selectorsFrom r'.ax r.cx.toNat
  else if r.ax = 0x0100 then [r'.dx]
  else []

theorem toNat_selectorsFrom {first : BitVec 16} {count i : ℕ} (hlast : first.toNat + 8 * count ≤ 2 ^ 16) (hi : i < count) :
    (first + BitVec.ofNat 16 (8 * i)).toNat = first.toNat + 8 * i := by
  rw [BitVec.toNat_add, BitVec.toNat_ofNat]
  omega

theorem nodup_selectorsFrom {first : BitVec 16} {count : ℕ} (hlast : first.toNat + 8 * count ≤ 2 ^ 16) :
    (selectorsFrom first count).Nodup := by
  unfold selectorsFrom
  refine List.Nodup.map_on ?_ List.nodup_range
  intro i hi j hj hsame
  rw [List.mem_range] at hi hj
  have hnat := congrArg BitVec.toNat hsame
  rw [toNat_selectorsFrom hlast hi, toNat_selectorsFrom hlast hj] at hnat
  omega

theorem mem_selectorsFrom {first selector : BitVec 16} {count : ℕ} (hlast : first.toNat + 8 * count ≤ 2 ^ 16)
    (h : selector ∈ selectorsFrom first count) :
    first.toNat ≤ selector.toNat ∧ selector.toNat < first.toNat + 8 * count := by
  obtain ⟨i, hi, rfl⟩ := List.mem_map.mp h
  rw [List.mem_range] at hi
  rw [toNat_selectorsFrom hlast hi]
  omega

namespace DpmiState

variable {s : DpmiState}

/-- What a call does to the allocations. -/
structure Serves (s : DpmiState) (r : DpmiRegisters) (s' : DpmiState) (r' : DpmiRegisters) : Prop where
  laws : s'.Laws
  next_le : s.allocator.nextSelector.toNat ≤ s'.allocator.nextSelector.toNat
  nodup : (returnedSelectors r r').Nodup
  fresh : ∀ selector ∈ returnedSelectors r r',
    s.allocator.nextSelector.toNat ≤ selector.toNat ∧ selector.toNat < s'.allocator.nextSelector.toNat

/-- A call that hands out no selectors. -/
theorem Serves.of_none {s' : DpmiState} {r r' : DpmiRegisters} (hlaws : s'.Laws)
    (hnext : s.allocator.nextSelector.toNat ≤ s'.allocator.nextSelector.toNat) (hnone : returnedSelectors r r' = []) :
    Serves s r s' r' :=
  ⟨hlaws, hnext, by rw [hnone]; exact List.nodup_nil, by rw [hnone]; simp⟩

theorem returnedSelectors_failed {r r' : DpmiRegisters} (h : r'.carry = true) : returnedSelectors r r' = [] := if_pos h

theorem returnedSelectors_other {r r' : DpmiRegisters} (h0 : r.ax ≠ 0x0000) (h100 : r.ax ≠ 0x0100) :
    returnedSelectors r r' = [] := by
  unfold returnedSelectors
  rw [if_neg h0, if_neg h100, ite_self]

/-- Service 0000 fails cleanly exactly when there are selectors enough or none at all. -/
theorem allocateLdtDescriptors_serves (h : s.Laws) {r : DpmiRegisters} (hax : r.ax = 0x0000) :
    Serves s r (s.allocateLdtDescriptors r).1 (s.allocateLdtDescriptors r).2 ∧
    (((s.allocateLdtDescriptors r).2.carry = true → SameAllocations s (s.allocateLdtDescriptors r).1) ↔
      s.allocator.left = 0 ∨ r.cx.toNat ≤ s.allocator.left) := by
  unfold allocateLdtDescriptors
  by_cases hzero : r.cx = 0
  · rw [if_pos hzero]
    dsimp only
    rw [if_neg Bool.false_ne_true]
    refine ⟨.of_none h (le_refl _) (returnedSelectors_failed (by simp)), ?_⟩
    rw [hzero]
    simp [SameAllocations.refl]
  · rw [if_neg hzero]
    dsimp only
    obtain ⟨hok, haligned, hvalid, hnext, hblocks, hbump⟩ := s.allocateDescriptors_spec r.cx.toNat h.allocator h.valid
    have hlaws : (allocateDescriptors r.cx.toNat s).1.Laws := h.of_blocks hvalid haligned hblocks hbump
    have hmore : s.allocator.nextSelector.toNat ≤ (allocateDescriptors r.cx.toNat s).1.allocator.nextSelector.toNat := by
      omega
    by_cases henough : r.cx.toNat ≤ s.allocator.left
    · rw [hok, if_pos (by simpa using henough)]
      have hpos : 0 < r.cx.toNat := by
        apply Nat.pos_of_ne_zero
        exact fun hnat => hzero (BitVec.eq_of_toNat_eq hnat)
      obtain ⟨next, hsome, -⟩ := h.allocator.allocateSelector_some (by omega)
      rw [hsome]
      rw [min_eq_left henough] at hnext
      have hlast : s.allocator.nextSelector.toNat + 8 * r.cx.toNat ≤ 2 ^ 16 := by
        rw [← hnext]
        exact (BitVec.isLt _).le
      have hreturned : returnedSelectors r
          { r with eax := DpmiRegisters.withLow r.eax s.allocator.nextSelector }.succeeds =
            selectorsFrom s.allocator.nextSelector r.cx.toNat := by
        unfold returnedSelectors
        rw [DpmiRegisters.carry_succeeds, if_neg Bool.false_ne_true, if_pos hax]
        exact congrArg (selectorsFrom · r.cx.toNat) (DpmiRegisters.setWidth_withLow _ _)
      refine ⟨⟨hlaws, hmore, ?_, ?_⟩, ?_⟩
      · show (returnedSelectors r { r with eax := DpmiRegisters.withLow r.eax s.allocator.nextSelector }.succeeds).Nodup
        rw [hreturned]
        exact nodup_selectorsFrom hlast
      · intro selector hselector
        change selector ∈ returnedSelectors r
          { r with eax := DpmiRegisters.withLow r.eax s.allocator.nextSelector }.succeeds at hselector
        rw [hreturned] at hselector
        rw [hnext]
        exact mem_selectorsFrom hlast hselector
      · simp [henough]
    · rw [hok, if_neg (by simpa using henough)]
      refine ⟨.of_none hlaws hmore (returnedSelectors_failed (by simp)), ?_⟩
      rw [min_eq_right (by omega)] at hnext
      simp only [DpmiRegisters.carry_failsWith, true_implies]
      constructor
      · intro hsame
        rw [hsame.allocator] at hnext
        left
        omega
      · rintro (hnone | hle)
        · have hunchanged : (allocateDescriptors r.cx.toNat s).1 = s := by
            cases hcount : r.cx.toNat with
            | zero => rfl
            | succ count =>
              rw [allocateDescriptors, SelectorAllocator.Aligned.allocateSelector_none hnone]
          rw [hunchanged]
          exact .refl s
        · exact absurd hle henough

/-- A call that fails leaves the allocations as they were. -/
def FailsCleanly (s s' : DpmiState) (r' : DpmiRegisters) : Prop := r'.carry = true → SameAllocations s s'

/-- The services that change a descriptor. -/
theorem updateDescriptor_serves (h : s.Laws) {r r' : DpmiRegisters} {s' : DpmiState}
    {update : GuestDescriptor → GuestDescriptor} {withdraw : DpmiState → DpmiState}
    (hwithdraw : ∀ s : DpmiState, SameAllocations s (withdraw s)) (hax : r.ax ≠ 0x0000 ∧ r.ax ≠ 0x0100)
    (hcall : s.updateDescriptor r update withdraw = some (s', r')) : Serves s r s' r' ∧ FailsCleanly s s' r' := by
  unfold updateDescriptor at hcall
  split at hcall
  case h_1 =>
    cases hcall
    exact ⟨.of_none h (le_refl _) (returnedSelectors_other hax.1 hax.2), fun _ => .refl s⟩
  case h_2 existing hfound =>
    split at hcall
    case h_1 => cases hcall
    case h_2 table htable =>
      cases hcall
      have hsame := hwithdraw (s.setTable table)
      have hvalid : (withdraw (s.setTable table)).table.valid = true := by
        rw [hsame.table]
        exact (registerDescriptor_valid htable).trans h.valid
      have halloc : (withdraw (s.setTable table)).allocator = s.allocator := hsame.allocator
      refine ⟨.of_none ?_ (by rw [halloc]) (returnedSelectors_other hax.1 hax.2), ?_⟩
      · exact h.of_blocks hvalid (by rw [halloc]; exact h.allocator) hsame.blocks hsame.bumpOffset
      · intro hcarry
        rw [DpmiRegisters.carry_succeeds] at hcarry
        cases hcarry

theorem withdrawAlternates_same (selector : BitVec 16) (s : DpmiState) :
    SameAllocations s (withdrawAlternates selector s) := by
  unfold withdrawAlternates
  split
  · exact .refl s
  · exact ⟨rfl, rfl, rfl, rfl⟩

/-- The paragraphs of a block are whole. -/
theorem toNat_paragraphs (paragraphs : BitVec 16) :
    (paragraphs.setWidth 32 * 16 : Word).toNat = paragraphs.toNat * 16 := by
  have := paragraphs.isLt
  rw [BitVec.toNat_mul, BitVec.toNat_setWidth]
  show paragraphs.toNat % 2 ^ 32 * 16 % 2 ^ 32 = _
  omega

theorem toNat_bump {offset size : Word} (hoffset : offset.toNat % 16 = 0) (hsize : size.toNat % 16 = 0)
    (hlow : offset.toNat + size.toNat ≤ kDosLowMemorySize) :
    ((offset + size + 15) &&& ~~~15).toNat = offset.toNat + size.toNat := by
  have hmask := RingIndex.toNat_and_not_mask (offset + size + 15) 4
  have hsum : (offset + size + 15).toNat = offset.toNat + size.toNat + 15 := by
    rw [BitVec.toNat_add, BitVec.toNat_add]
    show ((offset.toNat + size.toNat) % 2 ^ 32 + 15) % 2 ^ 32 = _
    unfold kDosLowMemorySize at hlow
    omega
  rw [hsum] at hmask
  refine hmask.trans ?_
  omega

/-- The state behind an allocation of DOS memory. -/
def withBlock (s : DpmiState) (index : ℕ) (allocator : SelectorAllocator) (size : Word) : DpmiState :=
  { s.setTable { s.table with
      descriptors := placeDescriptor
        { selector := s.allocator.nextSelector, base := s.bumpOffset, limit := size - 1, flags := 0x0092 }
        s.table.descriptors } with
    allocator := allocator
    blocks := s.blocks.set index
      { selector := s.allocator.nextSelector, offset := s.bumpOffset, size := size, active := true }
    bumpOffset := (s.bumpOffset + size + 15) &&& ~~~15 }

/-- There are a selector, a slot and the memory for a block. -/
def RoomFor (s : DpmiState) (size : Word) : Prop :=
  0 < size.toNat ∧ s.bumpOffset.toNat + size.toNat ≤ kDosLowMemorySize ∧
  (∃ block ∈ s.blocks, block.active = false) ∧ 0 < s.allocator.left

/-- An allocation of DOS memory changes nothing, or there is room for it. -/
theorem Laws.allocateBlock_cases (h : s.Laws) {size : Word} (hsize : size.toNat < 2 ^ 20) :
    (¬ s.RoomFor size ∧ s.allocateBlock size = (s, none)) ∨
    (s.RoomFor size ∧ ∃ index next, next.Aligned ∧
      next.nextSelector.toNat = s.allocator.nextSelector.toNat + 8 ∧
      s.allocateBlock size =
        (s.withBlock index next size, some ((s.bumpOffset / 16).setWidth 16, s.allocator.nextSelector))) := by
  have hbump := h.bump_le
  have hsum : (s.bumpOffset + size).toNat = s.bumpOffset.toNat + size.toNat := by
    rw [BitVec.toNat_add]
    unfold kDosLowMemorySize at hbump
    omega
  unfold allocateBlock
  rw [hsum]
  split
  case isFalse hroom => exact .inl ⟨fun hfits => hroom ⟨hfits.1, hfits.2.1⟩, rfl⟩
  case isTrue hroom =>
    split
    case h_1 hfull =>
      refine .inl ⟨?_, rfl⟩
      rintro ⟨-, -, ⟨block, hmem, hfree⟩, -⟩
      have := List.findIdx?_eq_none_iff.mp hfull block hmem
      rw [hfree] at this
      cases this
    case h_2 index hindex =>
      have hslot : ∃ block ∈ s.blocks, block.active = false := by
        obtain ⟨hlt, hfree, -⟩ := List.findIdx?_eq_some_iff_getElem.mp hindex
        exact ⟨s.blocks[index], List.getElem_mem hlt, by simpa using hfree⟩
      by_cases hleft : s.allocator.left = 0
      · rw [SelectorAllocator.Aligned.allocateSelector_none hleft]
        exact .inl ⟨fun hfits => absurd hfits.2.2.2 (by omega), rfl⟩
      · obtain ⟨next, hsome, hnext, hstep, -⟩ := h.allocator.allocateSelector_some (Nat.pos_of_ne_zero hleft)
        refine .inr ⟨⟨hroom.1, hroom.2, hslot, Nat.pos_of_ne_zero hleft⟩, index, next, hnext, hstep, ?_⟩
        rw [hsome]
        dsimp only
        rw [registerDescriptor_some (by exact h.valid) (by exact h.allocator.nextSelector_ne_zero)]
        rfl

/-- Service 0100 takes its selector only when nothing can fail behind it. -/
theorem allocateDosMemory_serves (h : s.Laws) {r : DpmiRegisters} (hax : r.ax = 0x0100) :
    Serves s r (s.allocateDosMemory r).1 (s.allocateDosMemory r).2 ∧
    FailsCleanly s (s.allocateDosMemory r).1 (s.allocateDosMemory r).2 := by
  have hparagraphs := toNat_paragraphs r.bx
  have hbx := r.bx.isLt
  unfold allocateDosMemory
  obtain ⟨-, hnone⟩ | ⟨⟨-, hlow, -⟩, index, next, hnext, hstep, hsome⟩ :=
    @Laws.allocateBlock_cases s h (r.bx.setWidth 32 * 16) (by omega)
  · rw [hnone]
    exact ⟨.of_none h (le_refl _) (returnedSelectors_failed (by simp)), fun _ => .refl s⟩
  · have hbump : (s.withBlock index next (r.bx.setWidth 32 * 16)).bumpOffset.toNat =
        s.bumpOffset.toNat + (r.bx.setWidth 32 * 16 : Word).toNat := toNat_bump h.bump_aligned (by omega) hlow
    rw [hsome]
    dsimp only
    have hreturned : returnedSelectors r
        { r with
          eax := DpmiRegisters.withLow r.eax ((s.bumpOffset / 16).setWidth 16)
          edx := DpmiRegisters.withLow r.edx s.allocator.nextSelector }.succeeds = [s.allocator.nextSelector] := by
      unfold returnedSelectors
      rw [DpmiRegisters.carry_succeeds, if_neg Bool.false_ne_true, if_neg (by rw [hax]; decide), if_pos hax]
      exact congrArg (fun selector => [selector]) (DpmiRegisters.setWidth_withLow _ _)
    refine ⟨⟨?_, ?_, ?_, ?_⟩, ?_⟩
    · refine h.set_block h.valid hnext rfl rfl ?_ ?_ ?_ ?_
      · rw [hbump]
        have := h.bump_aligned
        omega
      · rw [hbump]
        exact hlow
      · rw [hbump]
        omega
      · intro _
        rw [hbump]
        exact ⟨h.bump_aligned, le_refl _, le_refl _⟩
    · show _ ≤ next.nextSelector.toNat
      omega
    · rw [hreturned]
      exact List.nodup_singleton _
    · rw [hreturned]
      intro selector hselector
      rw [List.mem_singleton.mp hselector]
      show _ ∧ _ < next.nextSelector.toNat
      omega
    · intro hcarry
      rw [DpmiRegisters.carry_succeeds] at hcarry
      cases hcarry

/-- Service 0101 frees a block and leaves the others. -/
theorem freeDosMemory_serves (h : s.Laws) {r : DpmiRegisters} (hax : r.ax = 0x0101) :
    Serves s r (s.freeDosMemory r).1 (s.freeDosMemory r).2 ∧
    FailsCleanly s (s.freeDosMemory r).1 (s.freeDosMemory r).2 := by
  have hnone : ∀ r', returnedSelectors r r' = [] := fun r' =>
    returnedSelectors_other (by rw [hax]; decide) (by rw [hax]; decide)
  unfold freeDosMemory
  split
  case h_1 => exact ⟨.of_none h (le_refl _) (hnone _), fun _ => .refl s⟩
  case h_2 index hindex =>
    dsimp only
    refine ⟨.of_none ?_ (le_refl _) (hnone _), ?_⟩
    · refine h.set_block ?_ h.allocator rfl rfl h.bump_aligned h.bump_le (le_refl _) ?_
      · show (Option.getD _ s.table).valid = true
        cases hregister : registerDescriptor s.table _ with
        | none => exact h.valid
        | some table => exact (registerDescriptor_valid hregister).trans h.valid
      · intro hactive
        cases hactive
    · intro hcarry
      rw [DpmiRegisters.carry_succeeds] at hcarry
      cases hcarry

/-! ## Runs of calls -/

/-- The segment registers of the guest do not matter for the allocations. -/
theorem failsCleanly_synced {s' : DpmiState} {r' : DpmiRegisters} :
    FailsCleanly s.synced s' r' ↔ FailsCleanly s s' r' := by
  have htable := s.table_synced
  constructor
  · intro hclean hcarry
    obtain ⟨hsame, halloc, hblocks, hbump⟩ := hclean hcarry
    exact ⟨hsame.trans htable, halloc, hblocks, hbump⟩
  · intro hclean hcarry
    obtain ⟨hsame, halloc, hblocks, hbump⟩ := hclean hcarry
    exact ⟨hsame.trans htable.symm, halloc, hblocks, hbump⟩

/-- Every call keeps the laws, and it is known when one that fails changes nothing. -/
theorem handleDpmiInterrupt31_serves (h : s.Laws) {r r' : DpmiRegisters} {s' : DpmiState}
    (hcall : s.handleDpmiInterrupt31 r = some (s', r')) :
    Serves s r s' r' ∧
    (FailsCleanly s s' r' ↔ (r.ax = 0x0000 → s.allocator.left = 0 ∨ r.cx.toNat ≤ s.allocator.left)) := by
  -- The other services always fail cleanly.
  have hother : ∀ {s' r'}, r.ax ≠ 0x0000 → Serves s.synced r s' r' ∧ FailsCleanly s.synced s' r' →
      Serves s r s' r' ∧
      (FailsCleanly s s' r' ↔ (r.ax = 0x0000 → s.allocator.left = 0 ∨ r.cx.toNat ≤ s.allocator.left)) := by
    rintro s' r' hax ⟨⟨hlaws, hle, hnodup, hfresh⟩, hclean⟩
    refine ⟨⟨hlaws, hle, hnodup, hfresh⟩, ?_⟩
    exact ⟨fun _ hzero => absurd hzero hax, fun _ => failsCleanly_synced.mp hclean⟩
  obtain ⟨hax, hserved⟩ | ⟨hax, hserved⟩ | ⟨hax, hserved⟩ | ⟨hax, hserved⟩ | ⟨hax, hserved⟩ | ⟨hax, hserved⟩ :=
    handleDpmiInterrupt31_cases hcall
  · obtain ⟨⟨hlaws, hle, hnodup, hfresh⟩, hclean⟩ := allocateLdtDescriptors_serves h.synced hax
    rw [hserved] at hlaws hle hnodup hfresh hclean
    refine ⟨⟨hlaws, hle, hnodup, hfresh⟩, ?_⟩
    rw [← failsCleanly_synced]
    exact hclean.trans ⟨fun hleft _ => hleft, fun hleft => hleft hax⟩
  · exact hother (by rw [hax]; decide) (updateDescriptor_serves h.synced (withdrawAlternates_same _)
      ⟨by rw [hax]; decide, by rw [hax]; decide⟩ hserved)
  · exact hother (by rw [hax]; decide) (updateDescriptor_serves h.synced SameAllocations.refl
      ⟨by rw [hax]; decide, by rw [hax]; decide⟩ hserved)
  · exact hother (by rw [hax]; decide) (updateDescriptor_serves h.synced SameAllocations.refl
      ⟨by rw [hax]; decide, by rw [hax]; decide⟩ hserved)
  · have hdone := allocateDosMemory_serves h.synced hax
    rw [hserved] at hdone
    exact hother (by rw [hax]; decide) hdone
  · have hdone := freeDosMemory_serves h.synced hax
    rw [hserved] at hdone
    exact hother (by rw [hax]; decide) hdone

/-- The states reached by calls, with the selectors handed out so far. -/
inductive Calls (start : DpmiState) : DpmiState → List (BitVec 16) → Prop where
  | start : Calls start start []
  | call {s s' : DpmiState} {r r' : DpmiRegisters} {allocated : List (BitVec 16)} :
      Calls start s allocated → s.handleDpmiInterrupt31 r = some (s', r') →
      Calls start s' (allocated ++ returnedSelectors r r')

/-- A fresh thread context over a table that descriptors were registered in. -/
def initial (segments : SegmentState) (acceptedPair : Fin 6 → BitVec 16 × BitVec 16) (allocator : SelectorAllocator) :
    DpmiState :=
  { segments := segments
    acceptedPair := acceptedPair
    allocator := allocator
    blocks := List.replicate kRealModeBlockCapacity {}
    bumpOffset := 0x1000 }

theorem laws_initial {segments : SegmentState} {acceptedPair : Fin 6 → BitVec 16 × BitVec 16}
    {first : BitVec 16} {allocator : SelectorAllocator} (hvalid : segments.selectorTable.valid = true)
    (halloc : initializeSelectorAllocator first = some allocator) : (initial segments acceptedPair allocator).Laws where
  valid := hvalid
  allocator := .of_fresh halloc
  bump_aligned := by
    show (0x1000 : Word).toNat % 16 = 0
    decide
  bump_le := by
    show (0x1000 : Word).toNat ≤ kDosLowMemorySize
    decide
  below := by
    intro i block hblock hactive
    rw [(List.mem_replicate.mp (List.mem_of_getElem? hblock)).2] at hactive
    cases hactive
  apart := by
    intro i j a b _ ha _ hactive
    rw [(List.mem_replicate.mp (List.mem_of_getElem? ha)).2] at hactive
    cases hactive

theorem Calls.laws {start : DpmiState} (hstart : start.Laws) {allocated : List (BitVec 16)}
    (h : Calls start s allocated) :
    s.Laws ∧ allocated.Nodup ∧ ∀ selector ∈ allocated, selector.toNat < s.allocator.nextSelector.toNat := by
  induction h with
  | start => exact ⟨hstart, List.nodup_nil, by simp⟩
  | @call s s' r r' allocated _ hcall ih =>
    obtain ⟨hlaws, hnodup, hbelow⟩ := ih
    obtain ⟨hserves, -⟩ := handleDpmiInterrupt31_serves hlaws hcall
    refine ⟨hserves.laws, ?_, ?_⟩
    · -- The new selectors lie at or above the next one, the old ones below it.
      rw [List.nodup_append]
      refine ⟨hnodup, hserves.nodup, ?_⟩
      rintro selector hold _ hnew rfl
      have := hbelow selector hold
      have := (hserves.fresh selector hnew).1
      omega
    · intro selector hselector
      obtain hold | hnew := List.mem_append.mp hselector
      · exact (hbelow selector hold).trans_le hserves.next_le
      · exact (hserves.fresh selector hnew).2

/-- The allocations over any sequence of calls. -/
theorem dpmi_allocation_laws {segments : SegmentState} {acceptedPair : Fin 6 → BitVec 16 × BitVec 16}
    {first : BitVec 16} {allocator : SelectorAllocator} (hvalid : segments.selectorTable.valid = true)
    (halloc : initializeSelectorAllocator first = some allocator) {allocated : List (BitVec 16)}
    (h : Calls (initial segments acceptedPair allocator) s allocated) :
    (∀ (i : ℕ) (block : RealModeBlock), s.blocks[i]? = some block → block.active = true →
      block.offset.toNat % 16 = 0 ∧ block.offset.toNat + block.size.toNat ≤ kDosLowMemorySize) ∧
    (∀ (i j : ℕ) (a b : RealModeBlock), i ≠ j → s.blocks[i]? = some a → s.blocks[j]? = some b →
      a.active = true → b.active = true → Apart a b) ∧
    allocated.Nodup ∧
    ∀ r s' r', s.handleDpmiInterrupt31 r = some (s', r') →
      (FailsCleanly s s' r' ↔ (r.ax = 0x0000 → s.allocator.left = 0 ∨ r.cx.toNat ≤ s.allocator.left)) := by
  obtain ⟨hlaws, hnodup, -⟩ := h.laws (laws_initial hvalid halloc)
  refine ⟨?_, hlaws.apart, hnodup, ?_⟩
  · intro i block hblock hactive
    obtain ⟨haligned, hbelow⟩ := hlaws.below i block hblock hactive
    exact ⟨haligned, hbelow.trans hlaws.bump_le⟩
  · intro r s' r' hcall
    exact (handleDpmiInterrupt31_serves hlaws hcall).2

def sampleSegments : SegmentState :=
  { guestSelectors := fun _ => 0, guestAddresses := fun _ => 0, selectorTable := { descriptors := [] } }

/-- The context of a thread before its first call. -/
def fresh : DpmiState := initial sampleSegments (fun _ => (0, 0)) ⟨true, 0x00A4, 0⟩

/-- A call of a service with its counts in BX and CX. -/
def callOf (service : Word) (ebx ecx : Word) : DpmiRegisters := ⟨service, ebx, ecx, 0, 2, 0x1000⟩

/-- After two paragraphs were allocated the one selector handed out is `00A4`, and a call that then fails does so
cleanly. -/
theorem dpmi_allocation_laws_sample :
    [(0x00A4 : BitVec 16)].Nodup ∧
    FailsCleanly (fresh.synced.allocateDosMemory (callOf 0x0100 2 0)).1
      ((fresh.synced.allocateDosMemory (callOf 0x0100 2 0)).1.synced.allocateDosMemory (callOf 0x0100 0xFFFF 0)).1
      ((fresh.synced.allocateDosMemory (callOf 0x0100 2 0)).1.synced.allocateDosMemory (callOf 0x0100 0xFFFF 0)).2 := by
  have hcalls : Calls fresh (fresh.synced.allocateDosMemory (callOf 0x0100 2 0)).1
      ([] ++ returnedSelectors (callOf 0x0100 2 0) (fresh.synced.allocateDosMemory (callOf 0x0100 2 0)).2) :=
    .call .start rfl
  have hreturned : [] ++ returnedSelectors (callOf 0x0100 2 0)
      (fresh.synced.allocateDosMemory (callOf 0x0100 2 0)).2 = [0x00A4] := by decide
  rw [hreturned] at hcalls
  have halloc : initializeSelectorAllocator 0x00A4 = some ⟨true, 0x00A4, 0⟩ := by decide
  obtain ⟨-, -, hnodup, hclean⟩ := dpmi_allocation_laws (by rfl) halloc hcalls
  exact ⟨hnodup, (hclean (callOf 0x0100 0xFFFF 0) _ _ rfl).mpr fun hax => absurd hax (by decide)⟩

/-- A request for more descriptors than are left fails and keeps the ones it has taken. -/
theorem descriptors_leaked :
    ∃ s' r', fresh.handleDpmiInterrupt31 (callOf 0x0000 0 0xFFFF) = some (s', r') ∧ r'.carry = true ∧
      ¬ SameAllocations fresh s' := by
  have halloc : initializeSelectorAllocator 0x00A4 = some ⟨true, 0x00A4, 0⟩ := by decide
  have hlaws : fresh.Laws := laws_initial (by rfl) halloc
  have hcall : fresh.handleDpmiInterrupt31 (callOf 0x0000 0 0xFFFF) =
      some ((fresh.synced.allocateLdtDescriptors (callOf 0x0000 0 0xFFFF)).1,
        (fresh.synced.allocateLdtDescriptors (callOf 0x0000 0 0xFFFF)).2) := by
    rw [handleDpmiInterrupt31, if_pos (by decide), Prod.mk.eta]
  refine ⟨_, _, hcall, ?_⟩
  have hiff := (handleDpmiInterrupt31_serves hlaws hcall).2
  by_contra hclean
  push Not at hclean
  have hleft := hiff.mp hclean (by decide)
  exact absurd hleft (by decide)

end DpmiState

end Repiu.Engine
