import Repiu.Engine.DpmiAllocation

/-!
# Accepted selector pairs

A guarded load slot may switch natively to the two selectors that are accepted for
its register. An accepted selector must name a present descriptor of base zero, in
every state that segment loads and DPMI calls lead to.
-/

namespace Repiu.Engine

/-! ## Descriptors behind a registration -/

theorem find_placeDescriptor_of_ne {descriptor : GuestDescriptor} {selector : BitVec 16}
    (h : selector ≠ descriptor.selector) (l : List GuestDescriptor) :
    (placeDescriptor descriptor l).find? (fun d => d.selector = selector && d.present) =
      l.find? (fun d => d.selector = selector && d.present) := by
  induction l with
  | nil => simp [placeDescriptor, h.symm]
  | cons existing rest ih =>
    unfold placeDescriptor
    split
    case isTrue hsame =>
      rw [List.find?_cons_of_neg (by simp [h.symm]), List.find?_cons_of_neg (by simp [hsame, h.symm])]
    case isFalse =>
      rw [List.find?_cons, List.find?_cons, ih]

theorem find_placeDescriptor_self {descriptor : GuestDescriptor} (hpresent : descriptor.present = true)
    (l : List GuestDescriptor) :
    (placeDescriptor descriptor l).find? (fun d => d.selector = descriptor.selector && d.present) = some descriptor := by
  induction l with
  | nil => simp [placeDescriptor, hpresent]
  | cons existing rest ih =>
    unfold placeDescriptor
    split
    case isTrue => rw [List.find?_cons_of_pos (by simp [hpresent])]
    case isFalse hother => rw [List.find?_cons_of_neg (by simp [hother]), ih]

/-- No two descriptors have one selector. -/
def SelectorTable.Distinct (table : SelectorTable) : Prop :=
  (table.descriptors.map GuestDescriptor.selector).Nodup

theorem SelectorTable.Distinct.registerDescriptor {table table' : SelectorTable} (h : table.Distinct)
    {descriptor : GuestDescriptor} (hregister : registerDescriptor table descriptor = some table') : table'.Distinct := by
  unfold Engine.registerDescriptor at hregister
  split at hregister
  · cases hregister
  · cases hregister
    exact nodup_placeDescriptor h

/-- A descriptor that is registered as not present is not found. -/
theorem find_placeDescriptor_absent {descriptor : GuestDescriptor} (habsent : descriptor.present = false)
    {l : List GuestDescriptor} (hdistinct : (l.map GuestDescriptor.selector).Nodup) :
    (placeDescriptor descriptor l).find? (fun d => d.selector = descriptor.selector && d.present) = none := by
  induction l with
  | nil => simp [placeDescriptor, habsent]
  | cons existing rest ih =>
    rw [List.map_cons, List.nodup_cons] at hdistinct
    unfold placeDescriptor
    split
    case isTrue hsame =>
      rw [List.find?_cons_of_neg (by simp [habsent]), List.find?_eq_none]
      intro d hd
      rw [Bool.and_eq_true, decide_eq_true_eq]
      rintro ⟨hselector, -⟩
      apply hdistinct.1
      rw [hsame, ← hselector]
      exact List.mem_map_of_mem hd
    case isFalse hother => rw [List.find?_cons_of_neg (by simp [hother]), ih hdistinct.2]

/-- The selector names a present descriptor of base zero. -/
def SelectorTable.NamesFlat (table : SelectorTable) (selector : BitVec 16) : Prop :=
  ∃ descriptor, findDescriptor table selector = some descriptor ∧ descriptor.present = true ∧ descriptor.base = 0

section
variable {table table' : SelectorTable} {descriptor : GuestDescriptor} {selector : BitVec 16}

theorem findDescriptor_some {found : GuestDescriptor} (h : findDescriptor table selector = some found) :
    found.selector = selector ∧ found.present = true ∧ selector ≠ 0 ∧ table.valid = true := by
  unfold findDescriptor at h
  split at h
  case isTrue => cases h
  case isFalse hvalid =>
    have hholds := List.find?_some h
    rw [Bool.and_eq_true, decide_eq_true_eq] at hholds
    push Not at hvalid
    exact ⟨hholds.1, hholds.2, hvalid.2, hvalid.1⟩

theorem findDescriptor_registered (hregister : registerDescriptor table descriptor = some table') :
    table.valid = true ∧ descriptor.selector ≠ 0 ∧
    table' = { table with descriptors := placeDescriptor descriptor table.descriptors } := by
  unfold registerDescriptor at hregister
  split at hregister
  case isTrue => cases hregister
  case isFalse hvalid =>
    cases hregister
    push Not at hvalid
    exact ⟨by simpa using hvalid.1, hvalid.2, rfl⟩

theorem findDescriptor_of_ne (hregister : registerDescriptor table descriptor = some table')
    (hne : selector ≠ descriptor.selector) : findDescriptor table' selector = findDescriptor table selector := by
  obtain ⟨-, -, rfl⟩ := findDescriptor_registered hregister
  unfold findDescriptor
  rw [find_placeDescriptor_of_ne hne]

theorem findDescriptor_self (hregister : registerDescriptor table descriptor = some table')
    (hpresent : descriptor.present = true) : findDescriptor table' descriptor.selector = some descriptor := by
  obtain ⟨hvalid, hselector, rfl⟩ := findDescriptor_registered hregister
  unfold findDescriptor
  rw [find_placeDescriptor_self hpresent, if_neg]
  rintro (hinvalid | hzero)
  · exact hinvalid hvalid
  · exact hselector hzero

theorem findDescriptor_absent (hdistinct : table.Distinct) (hregister : registerDescriptor table descriptor = some table')
    (habsent : descriptor.present = false) : findDescriptor table' descriptor.selector = none := by
  obtain ⟨-, -, rfl⟩ := findDescriptor_registered hregister
  unfold findDescriptor
  rw [find_placeDescriptor_absent habsent hdistinct, ite_self]

/-- A registration moves a selector's base exactly as the descriptor says. -/
theorem namesFlat_registered (hregister : registerDescriptor table descriptor = some table')
    (hpresent : descriptor.present = true) :
    table'.NamesFlat selector ↔
      if selector = descriptor.selector then descriptor.base = 0 else table.NamesFlat selector := by
  unfold SelectorTable.NamesFlat
  split
  case isTrue hsame =>
    rw [hsame, findDescriptor_self hregister hpresent]
    constructor
    · rintro ⟨found, hfound, -, hbase⟩
      rw [Option.some.inj hfound]
      exact hbase
    · intro hbase
      exact ⟨descriptor, rfl, hpresent, hbase⟩
  case isFalse hne => rw [findDescriptor_of_ne hregister hne]

end

namespace DpmiState

variable {s s' : DpmiState}

/-! ## Accepted selectors -/

/-- The selector is accepted for the register. -/
def Accepts (s : DpmiState) (seg : Fin 6) (selector : BitVec 16) : Prop :=
  selector ≠ 0 ∧ (selector = (s.acceptedPair seg).1 ∨ selector = (s.acceptedPair seg).2)

/-- Every accepted selector names a present descriptor of base zero. -/
def Flat (s : DpmiState) : Prop := ∀ seg selector, s.Accepts seg selector → s.table.NamesFlat selector

/-- What holds in every state that is reached, besides. -/
structure Ready (s : DpmiState) : Prop where
  laws : s.Laws
  distinct : s.table.Distinct
  shadow : s.segments.shadowSelectors.isSome = true
  bump_pos : 0 < s.bumpOffset.toNat

/-- A registration keeps the accepted selectors flat exactly when it does not move the base of one. -/
theorem flat_registered (s' : DpmiState) {table : SelectorTable} {descriptor : GuestDescriptor} (h : s.Flat)
    (hregister : registerDescriptor s.table descriptor = some table) (hpresent : descriptor.present = true)
    (hpair : s'.acceptedPair = s.acceptedPair) (htable : s'.table = table) :
    s'.Flat ↔ (descriptor.base = 0 ∨ ∀ seg, ¬ s.Accepts seg descriptor.selector) := by
  unfold Flat Accepts at h ⊢
  rw [hpair, htable]
  constructor
  · intro hflat
    by_contra hmoved
    push Not at hmoved
    obtain ⟨hbase, seg, hne, haccepted⟩ := hmoved
    have hnames := (namesFlat_registered hregister hpresent).mp (hflat seg _ ⟨hne, haccepted⟩)
    rw [if_pos rfl] at hnames
    exact hbase hnames
  · intro hkept seg selector haccepted
    rw [namesFlat_registered hregister hpresent]
    split
    case isTrue hsame =>
      obtain hbase | hnone := hkept
      · exact hbase
      · exact absurd (hsame ▸ haccepted) (hnone seg)
    case isFalse => exact h seg selector haccepted

theorem flat_of_same (h : s.Flat) (hpair : s'.acceptedPair = s.acceptedPair) (htable : s'.table = s.table) : s'.Flat := by
  unfold Flat Accepts at h ⊢
  rw [hpair, htable]
  exact h

/-! ## Segment loads -/

theorem describeSelector_flat (h : s.Flat) (hready : s.Ready) (selector : BitVec 16) :
    (s.describeSelector selector).Flat ∧ (s.describeSelector selector).Ready := by
  unfold describeSelector
  split
  case isFalse => exact ⟨h, hready⟩
  case isTrue hnew =>
    have hregister := @registerDescriptor_some s.table
      { selector := selector, base := 0, limit := BitVec.ofNat 32 (kDosLowMemorySize - 1) } hready.laws.valid hnew.1
    rw [hregister]
    refine ⟨(flat_registered _ h hregister rfl (by rfl) (by rfl)).mpr (.inl rfl), ?_⟩
    exact ⟨hready.laws.of_blocks hready.laws.valid hready.laws.allocator rfl rfl,
      hready.distinct.registerDescriptor hregister, hready.shadow, hready.bump_pos⟩

theorem acceptAlternate_flat (h : s.Flat) (hready : s.Ready) (seg : Fin 6) (selector : BitVec 16) :
    (s.acceptAlternate seg selector).Flat ∧ (s.acceptAlternate seg selector).Ready := by
  unfold acceptAlternate
  split
  case isFalse => exact ⟨h, hready⟩
  case isTrue =>
    split
    case h_1 => exact ⟨h, hready⟩
    case h_2 descriptor hfound =>
      split
      case isFalse => exact ⟨h, hready⟩
      case isTrue hbase =>
        refine ⟨?_, ⟨hready.laws.of_blocks hready.laws.valid hready.laws.allocator rfl rfl, hready.distinct,
          hready.shadow, hready.bump_pos⟩⟩
        rintro other selector' ⟨hne, haccepted⟩
        dsimp only at haccepted
        split at haccepted
        case isTrue hother =>
          obtain hflat | rfl := haccepted
          · exact h seg selector' ⟨hne, .inl hflat⟩
          · exact ⟨descriptor, hfound, hbase.1, hbase.2⟩
        case isFalse => exact h other selector' ⟨hne, haccepted⟩

theorem recordGuestSegmentLoad_flat (h : s.Flat) (hready : s.Ready) (segmentRegister : Byte) (selector : BitVec 16) :
    (s.recordGuestSegmentLoad segmentRegister selector).Flat ∧
    (s.recordGuestSegmentLoad segmentRegister selector).Ready := by
  obtain ⟨hflat, hready'⟩ := describeSelector_flat h hready selector
  unfold recordGuestSegmentLoad
  generalize s.describeSelector selector = t at hflat hready'
  dsimp only
  split
  case isFalse => exact ⟨hflat, hready'⟩
  case isTrue =>
    split
    case h_1 hnone =>
      have hshadow := hready'.shadow
      rw [hnone] at hshadow
      cases hshadow
    case h_2 block hblock =>
      apply acceptAlternate_flat
      · exact flat_of_same hflat rfl rfl
      · exact ⟨hready'.laws.of_blocks hready'.laws.valid hready'.laws.allocator rfl rfl, hready'.distinct, rfl,
          hready'.bump_pos⟩

/-! ## DPMI calls -/

theorem Ready.synced (h : s.Ready) : s.synced.Ready := by
  refine ⟨h.laws.synced, by rw [table_synced]; exact h.distinct, ?_, h.bump_pos⟩
  unfold DpmiState.synced syncGuestSegmentsFromShadow
  have hshadow := h.shadow
  cases hblock : s.segments.shadowSelectors with
  | none =>
    rw [hblock] at hshadow
    cases hshadow
  | some block => rfl

/-- Service 0000 only registers descriptors of base zero. -/
theorem allocateDescriptors_flat (count : ℕ) (h : s.Flat) (hready : s.Ready) :
    (allocateDescriptors count s).1.Flat ∧ (allocateDescriptors count s).1.Ready := by
  induction count generalizing s with
  | zero => exact ⟨h, hready⟩
  | succ count ih =>
    by_cases hleft : s.allocator.left = 0
    · rw [allocateDescriptors, SelectorAllocator.Aligned.allocateSelector_none hleft]
      exact ⟨h, hready⟩
    · obtain ⟨next, hsome, hnext, -, -⟩ := hready.laws.allocator.allocateSelector_some (Nat.pos_of_ne_zero hleft)
      have hregister := @registerDescriptor_some s.table
        { selector := s.allocator.nextSelector, base := 0, limit := 0, flags := 0x0092 } hready.laws.valid
        hready.laws.allocator.nextSelector_ne_zero
      rw [allocateDescriptors, hsome]
      dsimp only
      rw [show (DpmiState.table { s with allocator := next }) = s.table from rfl, hregister]
      apply ih
      · exact (flat_registered _ h hregister rfl (by rfl) (by rfl)).mpr (.inl rfl)
      · exact ⟨hready.laws.of_blocks hready.laws.valid hnext rfl rfl,
          hready.distinct.registerDescriptor hregister, hready.shadow, hready.bump_pos⟩

/-- Service 0007 withdraws the alternates only: the base of a flat member must not move. -/
theorem setSegmentBase_flat (h : s.Flat) (hready : s.Ready) {r r' : DpmiRegisters}
    (hcall : s.setSegmentBase r = some (s', r')) :
    (s'.Flat ↔ ((findDescriptor s.table r.bx).isSome = true → r.cxDx = 0 ∨ ∀ seg, (s.acceptedPair seg).1 ≠ r.bx)) ∧
    s'.table.Distinct ∧ s'.segments.shadowSelectors.isSome = true ∧ s'.bumpOffset = s.bumpOffset := by
  unfold setSegmentBase updateDescriptor at hcall
  cases hfound : findDescriptor s.table r.bx with
  | none =>
    rw [hfound] at hcall
    cases hcall
    exact ⟨⟨fun _ hsome => absurd hsome Bool.false_ne_true, fun _ => h⟩, hready.distinct, hready.shadow, rfl⟩
  | some existing =>
    rw [hfound] at hcall
    obtain ⟨hselector, hpresent, hne, -⟩ := findDescriptor_some hfound
    have hregister := @registerDescriptor_some s.table { existing with base := r.cxDx } hready.laws.valid
      (by rw [hselector]; exact hne)
    dsimp only at hcall
    rw [hregister] at hcall
    obtain ⟨block, hblock⟩ := Option.isSome_iff_exists.mp hready.shadow
    have hwithdrawn : ∀ table, withdrawAlternates r.bx (s.setTable table) =
        { s.setTable table with acceptedPair := fun seg =>
            if (s.acceptedPair seg).2 = r.bx then ((s.acceptedPair seg).1, 0) else s.acceptedPair seg } := by
      intro table
      unfold withdrawAlternates
      rw [show (s.setTable table).segments.shadowSelectors = some block from hblock]
      rfl
    dsimp only at hcall
    rw [hwithdrawn] at hcall
    cases hcall
    refine ⟨?_, hready.distinct.registerDescriptor hregister, hready.shadow, rfl⟩
    have hnames : ∀ selector, SelectorTable.NamesFlat
        { s.table with descriptors := placeDescriptor { existing with base := r.cxDx } s.table.descriptors } selector ↔
          if selector = r.bx then r.cxDx = 0 else s.table.NamesFlat selector := by
      intro selector
      rw [namesFlat_registered hregister hpresent, hselector]
    constructor
    · intro hflat _
      by_contra hmoved
      push Not at hmoved
      obtain ⟨hbase, seg, hmember⟩ := hmoved
      have haccepted := hflat seg r.bx ⟨hne, .inl (by dsimp only; split <;> exact hmember.symm)⟩
      have hzero := (hnames r.bx).mp haccepted
      rw [if_pos rfl] at hzero
      exact hbase hzero
    · rintro hkept seg selector ⟨hnonzero, haccepted⟩
      refine (hnames selector).mpr ?_
      dsimp only at haccepted
      split
      case isTrue hsame =>
        obtain hbase | hmembers := hkept rfl
        · exact hbase
        · exfalso
          split at haccepted
          case isTrue =>
            obtain hfirst | hzero := haccepted
            · exact hmembers seg (hfirst.symm.trans hsame)
            · exact hnonzero hzero
          case isFalse hother =>
            obtain hfirst | hsecond := haccepted
            · exact hmembers seg (hfirst.symm.trans hsame)
            · exact hother (hsecond.symm.trans hsame)
      case isFalse =>
        apply h seg selector
        refine ⟨hnonzero, ?_⟩
        split at haccepted
        case isTrue =>
          obtain hfirst | hzero := haccepted
          · exact .inl hfirst
          · exact absurd hzero hnonzero
        case isFalse => exact haccepted

/-- Services 0008 and 0009 leave the base alone. -/
theorem updateDescriptor_flat (h : s.Flat) (hready : s.Ready) {r r' : DpmiRegisters}
    {update : GuestDescriptor → GuestDescriptor}
    (hupdate : ∀ d, (update d).selector = d.selector ∧ (update d).present = d.present ∧ (update d).base = d.base)
    (hcall : s.updateDescriptor r update id = some (s', r')) :
    s'.Flat ∧ s'.table.Distinct ∧ s'.segments.shadowSelectors.isSome = true ∧ s'.bumpOffset = s.bumpOffset := by
  unfold updateDescriptor at hcall
  cases hfound : findDescriptor s.table r.bx with
  | none =>
    rw [hfound] at hcall
    cases hcall
    exact ⟨h, hready.distinct, hready.shadow, rfl⟩
  | some existing =>
    rw [hfound] at hcall
    obtain ⟨hselector, hpresent, hne, -⟩ := findDescriptor_some hfound
    obtain ⟨hselector', hpresent', hbase'⟩ := hupdate existing
    have hregister := @registerDescriptor_some s.table (update existing) hready.laws.valid
      (by rw [hselector', hselector]; exact hne)
    dsimp only at hcall
    rw [hregister] at hcall
    cases hcall
    refine ⟨?_, hready.distinct.registerDescriptor hregister, hready.shadow, rfl⟩
    refine (flat_registered _ h hregister (hpresent'.trans hpresent) (by rfl) (by rfl)).mpr ?_
    rw [hselector', hselector, hbase']
    by_cases haccepted : ∃ seg, s.Accepts seg r.bx
    · obtain ⟨seg, haccepted⟩ := haccepted
      obtain ⟨found, hfound', -, hzero⟩ := h seg r.bx haccepted
      rw [hfound] at hfound'
      cases hfound'
      exact .inl hzero
    · push Not at haccepted
      exact .inr haccepted

/-- Service 0100 gives a selector a base that is not zero. -/
theorem allocateDosMemory_flat (h : s.Flat) (hready : s.Ready) (r : DpmiRegisters) :
    ((s.allocateDosMemory r).1.Flat ↔
      (s.RoomFor (r.bx.setWidth 32 * 16) → ∀ seg, ¬ s.Accepts seg s.allocator.nextSelector)) ∧
    (s.allocateDosMemory r).1.table.Distinct ∧
    (s.allocateDosMemory r).1.segments.shadowSelectors.isSome = true ∧
    0 < (s.allocateDosMemory r).1.bumpOffset.toNat := by
  have hparagraphs := toNat_paragraphs r.bx
  have hbx := r.bx.isLt
  have hpos := hready.bump_pos
  unfold allocateDosMemory
  obtain ⟨hfull, hnone⟩ | ⟨hroom, index, next, -, -, hsome⟩ :=
    @Laws.allocateBlock_cases s hready.laws (r.bx.setWidth 32 * 16) (by omega)
  · rw [hnone]
    exact ⟨⟨fun _ hroom => absurd hroom hfull, fun _ => h⟩, hready.distinct, hready.shadow, hpos⟩
  · rw [hsome]
    dsimp only
    have hregister := @registerDescriptor_some s.table
      { selector := s.allocator.nextSelector, base := s.bumpOffset, limit := r.bx.setWidth 32 * 16 - 1, flags := 0x0092 }
      hready.laws.valid hready.laws.allocator.nextSelector_ne_zero
    have hbase : ¬ (s.bumpOffset = 0) := by
      intro hzero
      rw [hzero] at hpos
      exact absurd hpos (by decide)
    refine ⟨?_, hready.distinct.registerDescriptor hregister, hready.shadow, ?_⟩
    · rw [flat_registered (s.withBlock index next (r.bx.setWidth 32 * 16)) h hregister rfl rfl rfl]
      constructor
      · rintro (hzero | hnone) _
        · exact absurd hzero hbase
        · exact hnone
      · intro hnone
        exact .inr (hnone hroom)
    · show 0 < ((s.bumpOffset + r.bx.setWidth 32 * 16 + 15) &&& ~~~15).toNat
      rw [toNat_bump hready.laws.bump_aligned (by omega) hroom.2.1]
      omega

/-- Service 0101 takes a descriptor away. -/
theorem freeDosMemory_flat (h : s.Flat) (hready : s.Ready) (r : DpmiRegisters) :
    ((s.freeDosMemory r).1.Flat ↔
      ((∃ block ∈ s.blocks, block.active = true ∧ block.selector = r.dx) → ∀ seg, ¬ s.Accepts seg r.dx)) ∧
    (s.freeDosMemory r).1.table.Distinct ∧
    (s.freeDosMemory r).1.segments.shadowSelectors.isSome = true ∧
    (s.freeDosMemory r).1.bumpOffset = s.bumpOffset := by
  unfold freeDosMemory
  split
  case h_1 hnone =>
    refine ⟨⟨?_, fun _ => h⟩, hready.distinct, hready.shadow, rfl⟩
    rintro _ ⟨block, hmem, hactive, hselector⟩
    have := List.findIdx?_eq_none_iff.mp hnone block hmem
    rw [hactive, hselector] at this
    simp at this
  case h_2 index hindex =>
    obtain ⟨hlt, hblock, -⟩ := List.findIdx?_eq_some_iff_getElem.mp hindex
    rw [Bool.and_eq_true, decide_eq_true_eq] at hblock
    have hexists : ∃ block ∈ s.blocks, block.active = true ∧ block.selector = r.dx :=
      ⟨s.blocks[index], List.getElem_mem hlt, hblock⟩
    dsimp only
    generalize hfreed : GuestDescriptor.mk r.dx (s.blocks.getD index {}).offset
      ((s.blocks.getD index {}).size - 1) 0x0092 false = freed
    have hselector : freed.selector = r.dx := by rw [← hfreed]
    have habsent : freed.present = false := by rw [← hfreed]
    by_cases hzero : r.dx = 0
    · -- The registration of selector zero is refused.
      have hrefused : registerDescriptor s.table freed = none := by
        rw [registerDescriptor, if_pos (.inr (by rw [hselector, hzero]))]
      rw [hrefused]
      refine ⟨⟨?_, fun _ => flat_of_same h rfl rfl⟩, hready.distinct, hready.shadow, rfl⟩
      rintro _ - seg ⟨hne, -⟩
      exact hne hzero
    · have hregister := @registerDescriptor_some s.table freed hready.laws.valid (by rw [hselector]; exact hzero)
      rw [hregister]
      refine ⟨?_, hready.distinct.registerDescriptor hregister, hready.shadow, rfl⟩
      constructor
      · intro hflat _ seg haccepted
        obtain ⟨found, hfound, -⟩ := hflat seg r.dx haccepted
        have hgone := findDescriptor_absent hready.distinct hregister habsent
        rw [hselector] at hgone
        exact absurd (hgone.symm.trans hfound) (by simp)
      · intro hnone seg selector haccepted
        have hne : selector ≠ freed.selector := by
          rw [hselector]
          rintro rfl
          exact hnone hexists seg haccepted
        obtain ⟨found, hfound, hpresent, hbase⟩ := h seg selector haccepted
        exact ⟨found, (findDescriptor_of_ne hregister hne).trans hfound, hpresent, hbase⟩

/-! ## Runs -/

/-- What the guest does: a load of a segment register by the HLE, or an INT 31h. -/
inductive GuestEvent where
  | load (segmentRegister : Byte) (selector : BitVec 16)
  | interrupt (r : DpmiRegisters)

def step (s : DpmiState) : GuestEvent → DpmiState
  | .load segmentRegister selector => s.recordGuestSegmentLoad segmentRegister selector
  | .interrupt r => (s.handleDpmiInterrupt31 r).elim s Prod.fst

/-- The event does not move the base of a flat member, allocate an accepted selector for a block, or free one. -/
def Spares (s : DpmiState) : GuestEvent → Prop
  | .load _ _ => True
  | .interrupt r =>
    (r.ax = 0x0007 → (findDescriptor s.table r.bx).isSome = true →
      r.cxDx = 0 ∨ ∀ seg, (s.acceptedPair seg).1 ≠ r.bx) ∧
    (r.ax = 0x0100 → s.RoomFor (r.bx.setWidth 32 * 16) → ∀ seg, ¬ s.Accepts seg s.allocator.nextSelector) ∧
    (r.ax = 0x0101 → (∃ block ∈ s.blocks, block.active = true ∧ block.selector = r.dx) → ∀ seg, ¬ s.Accepts seg r.dx)

/-- Only three services can fail to spare an accepted selector. -/
theorem spares_of_other {r : DpmiRegisters} (h7 : r.ax ≠ 0x0007) (h100 : r.ax ≠ 0x0100) (h101 : r.ax ≠ 0x0101) :
    s.Spares (.interrupt r) :=
  ⟨fun hax => absurd hax h7, fun hax => absurd hax h100, fun hax => absurd hax h101⟩

/-- A call keeps the accepted selectors flat exactly when it spares them. -/
theorem interrupt_flat_iff (h : s.Flat) (hready : s.Ready) {r r' : DpmiRegisters}
    (hcall : s.handleDpmiInterrupt31 r = some (s', r')) : (s'.Flat ↔ s.Spares (.interrupt r)) ∧ s'.Ready := by
  have hflat : s.synced.Flat := flat_of_same h rfl s.table_synced
  have hsynced : s.synced.Ready := hready.synced
  have hlaws : s'.Laws := (handleDpmiInterrupt31_serves hready.laws hcall).1.laws
  have hpos := hready.bump_pos
  obtain ⟨hax, hserved⟩ | ⟨hax, hserved⟩ | ⟨hax, hserved⟩ | ⟨hax, hserved⟩ | ⟨hax, hserved⟩ | ⟨hax, hserved⟩ :=
    handleDpmiInterrupt31_cases hcall
  · obtain ⟨hkept, hkeptReady⟩ : s'.Flat ∧ s'.Ready := by
      have hs' : s' = (if r.cx = 0 then (s.synced, false) else allocateDescriptors r.cx.toNat s.synced).1 := by
        refine (congrArg Prod.fst hserved).symm.trans ?_
        unfold allocateLdtDescriptors
        dsimp only
        generalize (if r.cx = 0 then (s.synced, false) else allocateDescriptors r.cx.toNat s.synced) = result
        split <;> rfl
      rw [hs']
      split
      · exact ⟨hflat, hsynced⟩
      · exact allocateDescriptors_flat _ hflat hsynced
    refine ⟨⟨fun _ => spares_of_other ?_ ?_ ?_, fun _ => hkept⟩, hkeptReady⟩ <;> rw [hax] <;> decide
  · obtain ⟨hiff, hdistinct, hshadow, hbump⟩ := setSegmentBase_flat hflat hsynced hserved
    refine ⟨hiff.trans ?_, hlaws, hdistinct, hshadow, by rw [hbump]; exact hpos⟩
    rw [table_synced]
    constructor
    · intro hkept
      exact ⟨fun _ => hkept, fun h100 => absurd (hax.symm.trans h100) (by decide),
        fun h101 => absurd (hax.symm.trans h101) (by decide)⟩
    · intro hspares
      exact hspares.1 hax
  · unfold setSegmentLimit at hserved
    obtain ⟨hkept, hdistinct, hshadow, hbump⟩ := updateDescriptor_flat hflat hsynced (by intro d; exact ⟨rfl, rfl, rfl⟩)
      hserved
    refine ⟨⟨fun _ => spares_of_other ?_ ?_ ?_, fun _ => hkept⟩, hlaws, hdistinct, hshadow, by rw [hbump]; exact hpos⟩ <;>
      rw [hax] <;> decide
  · unfold setAccessRights at hserved
    obtain ⟨hkept, hdistinct, hshadow, hbump⟩ := updateDescriptor_flat hflat hsynced (by intro d; exact ⟨rfl, rfl, rfl⟩)
      hserved
    refine ⟨⟨fun _ => spares_of_other ?_ ?_ ?_, fun _ => hkept⟩, hlaws, hdistinct, hshadow, by rw [hbump]; exact hpos⟩ <;>
      rw [hax] <;> decide
  · obtain ⟨hiff, hdistinct, hshadow, hbump⟩ := allocateDosMemory_flat hflat hsynced r
    rw [hserved] at hiff hdistinct hshadow hbump
    refine ⟨hiff.trans ?_, hlaws, hdistinct, hshadow, hbump⟩
    constructor
    · intro hkept
      exact ⟨fun h7 => absurd (hax.symm.trans h7) (by decide), fun _ => hkept,
        fun h101 => absurd (hax.symm.trans h101) (by decide)⟩
    · intro hspares
      exact hspares.2.1 hax
  · obtain ⟨hiff, hdistinct, hshadow, hbump⟩ := freeDosMemory_flat hflat hsynced r
    rw [hserved] at hiff hdistinct hshadow hbump
    refine ⟨hiff.trans ?_, hlaws, hdistinct, hshadow, by rw [hbump]; exact hpos⟩
    constructor
    · intro hkept
      exact ⟨fun h7 => absurd (hax.symm.trans h7) (by decide), fun h100 => absurd (hax.symm.trans h100) (by decide),
        fun _ => hkept⟩
    · intro hspares
      exact hspares.2.2 hax

/-- Where no modelled service answers there is nothing to spare. -/
theorem spares_of_none (hready : s.Ready) {r : DpmiRegisters} (hcall : s.handleDpmiInterrupt31 r = none) :
    s.Spares (.interrupt r) := by
  unfold handleDpmiInterrupt31 at hcall
  dsimp only at hcall
  apply spares_of_other
  · intro h7
    rw [if_neg (by rw [h7]; decide), if_pos h7] at hcall
    unfold setSegmentBase updateDescriptor at hcall
    split at hcall
    case h_1 => cases hcall
    case h_2 existing hfound =>
      obtain ⟨hselector, -, hne, -⟩ := findDescriptor_some hfound
      rw [registerDescriptor_some hready.synced.laws.valid (by exact hselector ▸ hne)] at hcall
      cases hcall
  · intro h100
    rw [if_neg (by rw [h100]; decide), if_neg (by rw [h100]; decide), if_neg (by rw [h100]; decide),
      if_neg (by rw [h100]; decide), if_pos h100] at hcall
    cases hcall
  · intro h101
    rw [if_neg (by rw [h101]; decide), if_neg (by rw [h101]; decide), if_neg (by rw [h101]; decide),
      if_neg (by rw [h101]; decide), if_neg (by rw [h101]; decide), if_pos h101] at hcall
    cases hcall

/-- An event keeps the accepted selectors flat exactly when it spares them. -/
theorem step_flat_iff (h : s.Flat) (hready : s.Ready) (e : GuestEvent) :
    ((s.step e).Flat ↔ s.Spares e) ∧ (s.step e).Ready := by
  cases e with
  | load segmentRegister selector =>
    obtain ⟨hflat, hready'⟩ := recordGuestSegmentLoad_flat h hready segmentRegister selector
    exact ⟨⟨fun _ => trivial, fun _ => hflat⟩, hready'⟩
  | interrupt r =>
    show (((s.handleDpmiInterrupt31 r).elim s Prod.fst).Flat ↔ _) ∧ ((s.handleDpmiInterrupt31 r).elim s Prod.fst).Ready
    cases hcall : s.handleDpmiInterrupt31 r with
    | none => exact ⟨⟨fun _ => spares_of_none hready hcall, fun _ => h⟩, hready⟩
    | some result => exact interrupt_flat_iff h hready hcall

/-- The states that events lead to which spare the accepted selectors. -/
inductive Runs (start : DpmiState) : DpmiState → Prop where
  | start : Runs start start
  | step {s : DpmiState} (e : GuestEvent) : Runs start s → s.Spares e → Runs start (s.step e)

end DpmiState

/-- A table made by registrations. -/
def registerAll (descriptors : List GuestDescriptor) : SelectorTable :=
  descriptors.foldl (fun table descriptor => (registerDescriptor table descriptor).getD table) { descriptors := [] }

theorem registerAll_distinct (descriptors : List GuestDescriptor) :
    (registerAll descriptors).valid = true ∧ (registerAll descriptors).Distinct := by
  unfold registerAll
  suffices hall : ∀ (table : SelectorTable), table.valid = true ∧ table.Distinct →
      (descriptors.foldl (fun table descriptor => (registerDescriptor table descriptor).getD table) table).valid = true ∧
      (descriptors.foldl (fun table descriptor => (registerDescriptor table descriptor).getD table) table).Distinct from
    hall _ ⟨rfl, List.nodup_nil⟩
  induction descriptors with
  | nil => exact fun _ h => h
  | cons descriptor rest ih =>
    rintro table ⟨hvalid, hdistinct⟩
    apply ih
    dsimp only
    cases hregister : registerDescriptor table descriptor with
    | none => exact ⟨hvalid, hdistinct⟩
    | some table' => exact ⟨(registerDescriptor_valid hregister).trans hvalid, hdistinct.registerDescriptor hregister⟩

namespace DpmiState

/-- A thread whose shadow block was just seeded. -/
def seeded (segments : SegmentState) (allocator : SelectorAllocator) (flatDataSelector flatStackSelector : BitVec 16) :
    DpmiState :=
  (initial segments (fun _ => (0, 0)) allocator).seedAotShadowAcceptedPairs flatDataSelector flatStackSelector

theorem seeded_flat {segments : SegmentState} {allocator : SelectorAllocator}
    {flatDataSelector flatStackSelector : BitVec 16} (hdata : segments.selectorTable.NamesFlat flatDataSelector)
    (hstack : segments.selectorTable.NamesFlat flatStackSelector) :
    (seeded segments allocator flatDataSelector flatStackSelector).Flat := by
  rintro seg selector ⟨hne, haccepted⟩
  unfold seeded seedAotShadowAcceptedPairs initial at haccepted ⊢
  dsimp only at haccepted
  show segments.selectorTable.NamesFlat selector
  split at haccepted
  · exact absurd (haccepted.elim id id) hne
  · obtain hflat | hzero := haccepted
    · dsimp only at hflat
      split at hflat
      · exact hflat ▸ hstack
      · exact hflat ▸ hdata
    · exact absurd hzero hne

/-- Accepted selectors name present descriptors of base zero through every run that spares them, and an event that
does not spare them leaves one that does not. -/
theorem accepted_pairs_flat {segments : SegmentState} {descriptors : List GuestDescriptor} {first : BitVec 16}
    {allocator : SelectorAllocator} {flatDataSelector flatStackSelector : BitVec 16}
    (hshadow : segments.shadowSelectors.isSome = true) (htable : segments.selectorTable = registerAll descriptors)
    (halloc : initializeSelectorAllocator first = some allocator)
    (hdata : segments.selectorTable.NamesFlat flatDataSelector)
    (hstack : segments.selectorTable.NamesFlat flatStackSelector) {s : DpmiState}
    (h : Runs (seeded segments allocator flatDataSelector flatStackSelector) s) :
    s.Flat ∧ ∀ e, (s.step e).Flat ↔ s.Spares e := by
  obtain ⟨hvalid, hdistinct⟩ := registerAll_distinct descriptors
  rw [← htable] at hvalid hdistinct
  have hlaws : (initial segments (fun _ => (0, 0)) allocator).Laws := laws_initial hvalid halloc
  have hstart : (seeded segments allocator flatDataSelector flatStackSelector).Ready :=
    ⟨hlaws.of_blocks hvalid hlaws.allocator rfl rfl, hdistinct, hshadow, by
      show 0 < (0x1000 : Word).toNat
      decide⟩
  have hinvariant : s.Flat ∧ s.Ready := by
    induction h with
    | start => exact ⟨seeded_flat hdata hstack, hstart⟩
    | step e _ hspares ih =>
      obtain ⟨hiff, hready⟩ := step_flat_iff ih.1 ih.2 e
      exact ⟨hiff.mpr hspares, hready⟩
  exact ⟨hinvariant.1, fun e => (step_flat_iff hinvariant.1 hinvariant.2 e).1⟩

def flatDescriptors : List GuestDescriptor :=
  [{ selector := 0x24, base := 0, limit := 0xFFFFFFFF }, { selector := 0x2C, base := 0, limit := 0xFFFFFFFF }]

def flatSegments : SegmentState :=
  { guestSelectors := fun _ => 0, guestAddresses := fun _ => 0, selectorTable := registerAll flatDescriptors,
    shadowSelectors := some ⟨0x1F000000, fun _ => 0⟩ }

/-- The thread of the samples: flat data selector `24`, flat stack selector `2C`. -/
def sampleThread : DpmiState := seeded flatSegments ⟨true, 0x00A4, 0⟩ 0x24 0x2C

theorem flatSegments_flat : flatSegments.selectorTable.NamesFlat 0x24 ∧ flatSegments.selectorTable.NamesFlat 0x2C :=
  ⟨⟨{ selector := 0x24, base := 0, limit := 0xFFFFFFFF }, by decide, rfl, rfl⟩,
    ⟨{ selector := 0x2C, base := 0, limit := 0xFFFFFFFF }, by decide, rfl, rfl⟩⟩

/-- A load of DS accepts selector `2C` as its alternate. -/
theorem accepted_pairs_flat_sample :
    (sampleThread.step (.load 3 0x2C)).Flat ∧ (sampleThread.step (.load 3 0x2C)).acceptedPair 3 = (0x24, 0x2C) := by
  have halloc : initializeSelectorAllocator 0x00A4 = some ⟨true, 0x00A4, 0⟩ := by decide
  obtain ⟨hdata, hstack⟩ := flatSegments_flat
  refine ⟨(accepted_pairs_flat (by rfl) (by rfl) halloc hdata hstack (.step (.load 3 0x2C) .start trivial)).1, ?_⟩
  decide

/-- INT 31h 0007 with BX = 0024: the base becomes `1000`. -/
def moveFlatBase : DpmiRegisters := ⟨0x0007, 0x0024, 0, 0x1000, 2, 0x1000⟩

/-- The base of the flat data selector moves and the selector stays accepted. -/
theorem accepted_pairs_not_flat :
    (sampleThread.step (.interrupt moveFlatBase)).acceptedPair 3 = (0x24, 0) ∧
    (findDescriptor (sampleThread.step (.interrupt moveFlatBase)).table 0x24).map GuestDescriptor.base = some 0x1000 ∧
    ¬ (sampleThread.step (.interrupt moveFlatBase)).Flat := by
  have hpair : (sampleThread.step (.interrupt moveFlatBase)).acceptedPair 3 = (0x24, 0) := by decide
  have hbase : (findDescriptor (sampleThread.step (.interrupt moveFlatBase)).table 0x24).map GuestDescriptor.base =
      some 0x1000 := by decide
  refine ⟨hpair, hbase, ?_⟩
  intro hflat
  obtain ⟨descriptor, hfound, -, hzero⟩ := hflat 3 0x24 ⟨by decide, .inl (by rw [hpair])⟩
  rw [hfound, Option.map_some, hzero] at hbase
  exact absurd hbase (by decide)

end DpmiState

end Repiu.Engine
