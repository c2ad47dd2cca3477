import Repiu.Runtime.AddressMap

/-!
# The slots of an image

The bytes of an entry of a finished image are those of the slot emitted for its
address, up to the displacements resolution has filled in.
-/

namespace Repiu.Runtime

open Repiu.X86

/-! ## The emission loop -/

/-- What a property of the emission loop has to survive: a record whose address is mapped already,
a slot, bytes between slots, and a change of the pending edge. -/
structure EmissionInvariant (input : BuildInput) (Q : List AotInstructionRecord → BuildState → Prop) :
    Prop where
  start : Q [] {}
  mapped : ∀ done s record, (findEntry s.addressMap record.guestAddress).isSome → Q done s →
    Q (done ++ [record]) s
  slot : ∀ done s record, Emitted input done s → Emittable input record →
    (findEntry s.addressMap record.guestAddress).isSome = false → Q done s →
    Q (done ++ [record]) (emitRecord input s record)
  gap : ∀ done s g, Emitted input done s → GapSpec g → Q done s →
    Q done { s with code := s.code.append g }
  pending : ∀ done s p, Q done s → Q done { s with pending := p }

namespace EmissionInvariant

variable {input : BuildInput} {Q : List AotInstructionRecord → BuildState → Prop}
  {done : List AotInstructionRecord} {s : BuildState}

theorem emitRecord (h : EmissionInvariant input Q) (hs : Emitted input done s) (hq : Q done s)
    {record : AotInstructionRecord} (hrecord : Emittable input record) :
    Q (done ++ [record]) (Runtime.emitRecord input s record) := by
  by_cases hmapped : (findEntry s.addressMap record.guestAddress).isSome
  · rw [Runtime.emitRecord, if_pos hmapped]
    exact h.mapped done s record hmapped hq
  · exact h.slot done s record hs hrecord (by simpa using hmapped) hq

theorem emitRecords (h : EmissionInvariant input Q) (hs : Emitted input done s) (hq : Q done s)
    (records : List AotInstructionRecord) (hrecords : ∀ r ∈ records, Emittable input r) :
    Q (done ++ records) (records.foldl (Runtime.emitRecord input) s) := by
  induction records generalizing done s with
  | nil => simpa using hq
  | cons r rs ih =>
    have hr := hrecords r List.mem_cons_self
    have := ih (hs.emitRecord hr) (h.emitRecord hs hq hr) fun x hx =>
      hrecords x (List.mem_cons_of_mem r hx)
    rwa [List.append_assoc] at this

theorem closeBlock (h : EmissionInvariant input Q) (hs : Emitted input done s) (hq : Q done s)
    (block : AotBasicBlock) : Q done (Runtime.closeBlock input s block) := by
  unfold Runtime.closeBlock
  split
  · split
    · exact hq
    · split
      · split
        · exact h.pending done s _ hq
        · exact hq
      · exact h.gap done _ _ (hs.gap (gapSpec_safePointIf _ _ _) s.pending)
          (gapSpec_emitBlockFallthrough _ _) (h.gap done s _ hs (gapSpec_safePointIf _ _ _) hq)
      · exact hq
  · exact hq

theorem blocks (h : EmissionInvariant input Q) (hs : Emitted input done s) (hq : Q done s)
    (blocks : List AotBasicBlock) (hblocks : RecordInvariant.All (Emittable input) blocks) :
    Q (done ++ (blocks.map AotBasicBlock.instructions).flatten) (blocks.foldl (emitBlock input) s) := by
  induction blocks generalizing done s with
  | nil => simpa using hq
  | cons b bs ih =>
    have hb := hblocks b List.mem_cons_self
    have hrecords := hs.emitRecords b.instructions hb
    have := ih (hrecords.closeBlock b) (h.closeBlock hrecords (h.emitRecords hs hq b.instructions hb) b)
      fun x hx => hblocks x (List.mem_cons_of_mem b hx)
    rw [List.append_assoc] at this
    exact this

/-- The rule: such a property holds of the whole emission. -/
theorem emitBlocks (h : EmissionInvariant input Q) {blocks : List AotBasicBlock}
    (hblocks : RecordInvariant.All (Emittable input) blocks) :
    Q (blocks.map AotBasicBlock.instructions).flatten (Runtime.emitBlocks input blocks) := by
  have hstart : Emitted input [] {} :=
    ⟨EmitSpec.empty, fun _ => rfl, by simp, by simp, List.Pairwise.nil⟩
  have hs := hstart.blocks blocks hblocks
  have hq := h.blocks hstart h.start blocks hblocks
  rw [List.nil_append] at hs hq
  unfold Runtime.emitBlocks
  simp only
  split
  · exact h.pending _ _ _ (h.gap _ _ _ hs (gapSpec_emitBlockFallthrough _ _) hq)
  · exact hq

end EmissionInvariant

/-! ## Slots in code -/

/-- A fragment lies in code at an offset, and no other fixup of the code writes there. -/
structure SlotAt (code : Fragment) (offset : ℕ) (f : Fragment) : Prop where
  inside : offset + f.bytes.length ≤ code.bytes.length
  bytes : ∀ k < f.bytes.length, code.bytes.getD (offset + k) 0 = f.bytes.getD k 0
  fixups : ∀ x ∈ code.fixups, (∃ y ∈ f.fixups, x = y.move offset) ∨
    x.cachePatchOffset + fixupWidth code.bytes x ≤ offset ∨
    offset + f.bytes.length ≤ x.cachePatchOffset

theorem fixupWidth_left {a b : Fragment} (h : FixupsIn a) {x : AotCodeCacheFixup} (hx : x ∈ a.fixups) :
    fixupWidth (a.append b).bytes x = fixupWidth a.bytes x := by
  simp only [fixupWidth, Fragment.append_bytes, isExternalFixup_left (h.lt_length hx)]

/-- A slot stays where it is when more code follows. -/
theorem SlotAt.append {a : Fragment} {offset : ℕ} {f : Fragment} (h : SlotAt a offset f)
    (ha : FixupsIn a) (b : Fragment) : SlotAt (a.append b) offset f where
  inside := by
    have := h.inside
    rw [Fragment.append_bytes_length]
    omega
  bytes := by
    intro k hk
    have := h.inside
    rw [← h.bytes k hk, Fragment.append_bytes]
    exact List.getD_append _ _ _ _ (by omega)
  fixups := by
    intro x hx
    rcases List.mem_append.mp hx with hx | hx
    · rw [fixupWidth_left ha hx]
      exact h.fixups x hx
    · obtain ⟨y, -, rfl⟩ := List.mem_map.mp hx
      have := h.inside
      simp only [AotCodeCacheFixup.move]
      omega

/-- A slot behind the code so far. -/
theorem SlotAt.last {a : Fragment} (ha : FixupsIn a) (f : Fragment) :
    SlotAt (a.append f) a.bytes.length f where
  inside := by rw [Fragment.append_bytes_length]
  bytes := by
    intro k _
    rw [Fragment.append_bytes]
    exact getD_append_add k
  fixups := by
    intro x hx
    rcases List.mem_append.mp hx with hx | hx
    · rw [fixupWidth_left ha hx]
      exact Or.inr (Or.inl (ha.inside x hx))
    · obtain ⟨y, hy, rfl⟩ := List.mem_map.mp hx
      exact Or.inl ⟨y, hy, rfl⟩

/-- Every entry has the slot of the first record with its address. -/
def Slotted (input : BuildInput) (done : List AotInstructionRecord) (s : BuildState) : Prop :=
  ∀ e ∈ s.addressMap, ∃ r, (done.find? fun r => r.guestAddress = e.guestAddress) = some r ∧
    e.guestLength = r.length ∧ e.emittedLength = (emitSlot input r).code.bytes.length ∧
    SlotAt s.code e.cacheOffset (emitSlot input r).code

theorem slotted_invariant (input : BuildInput) : EmissionInvariant input (Slotted input) where
  start := by
    intro e he
    cases he
  mapped := by
    intro done s record _ h e he
    obtain ⟨r, hr, hrest⟩ := h e he
    exact ⟨r, by rw [List.find?_append, hr, Option.some_or], hrest⟩
  slot := by
    intro done s record hs hrecord hmapped h e he
    have hshort := (slotSpec_emitSlot hrecord).2
    have hgap := hs.spec.gap (gapSpec_pendingEdge s.pending record.guestAddress)
    rw [emitRecord, if_neg (by rw [hmapped]; decide)] at he ⊢
    rcases List.mem_append.mp he with he | he
    · obtain ⟨r, hr, hlen, hemitted, hslot⟩ := h e he
      refine ⟨r, by rw [List.find?_append, hr, Option.some_or], hlen, hemitted, ?_⟩
      exact (hslot.append hs.spec.fixups _).append hgap.fixups _
    · rw [List.mem_singleton] at he
      have hdone : (done.find? fun r => r.guestAddress = record.guestAddress) = none := by
        rw [List.find?_eq_none]
        intro r hr heq
        have := hs.mapped r hr
        rw [of_decide_eq_true heq, hmapped] at this
        exact absurd this Bool.false_ne_true
      rw [he]
      refine ⟨record, ?_, rfl, ?_, ?_⟩
      · have hfind : ((done ++ [record]).find? fun r => r.guestAddress = record.guestAddress) =
            some record := by
          rw [List.find?_append, hdone, Option.none_or]
          simp
        exact hfind
      · exact Nat.mod_eq_of_lt (by omega)
      · exact SlotAt.last hgap.fixups _
  gap := by
    intro done s g hs _ h e he
    obtain ⟨r, hr, hlen, hemitted, hslot⟩ := h e he
    exact ⟨r, hr, hlen, hemitted, hslot.append hs.spec.fixups g⟩
  pending := fun _ _ _ h => h

/-! ## The 32-bit back end -/

/-- The bytes of an entry of a 32-bit image, outside the displacements of its slot. -/
theorem imageSlot_getD {input : BuildInput} {plan : AotTranslationPlan} {image : AotCodeCacheImage}
    (hmode : input.options.enableLongModeEmission = false) (hplan : EmittablePlan input.table plan)
    (h : buildAotCodeCacheImage input plan = some image) {e : AotAddressMapEntry}
    (he : e ∈ image.addressMap) :
    ∃ r, (plan.records.find? fun r => r.guestAddress = e.guestAddress) = some r ∧
      e.emittedLength = (emitLegacy input.table input.options r).bytes.length ∧
      ∀ k < e.emittedLength,
        (∀ y ∈ (emitLegacy input.table input.options r).fixups,
          isExternalFixup (emitLegacy input.table input.options r).bytes y = false →
          k < y.cachePatchOffset ∨ y.cachePatchOffset + 4 ≤ k) →
        image.bytes.getD (e.cacheOffset + k) 0 =
          (emitLegacy input.table input.options r).bytes.getD k 0 := by
  obtain ⟨s, hs, hcode, hmap, -⟩ := buildAotCodeCacheImage_eq_some h
  have hemitted := emitted_emitBlocks hplan.records
  have hslots := (slotted_invariant input).emitBlocks hplan.records
  rw [hmap] at he
  obtain ⟨r, hfind, -, hlength, hslot⟩ := hslots e he
  have hlegacy : (emitSlot input r).code = emitLegacy input.table input.options r := by
    rw [emitSlot, if_neg (by rw [hmode]; decide)]
  rw [hlegacy] at hlength hslot
  refine ⟨r, hfind, hlength, ?_⟩
  intro k hk hclear
  have hinside := hslot.inside
  have huntouched : Untouched (emitBlocks input plan.blocks).code
      (emitBlocks input plan.blocks).code.fixups (emitBlocks input plan.blocks).code.bytes :=
    ⟨le_rfl, fun x hx => hemitted.spec.fixups.lt_length hx, fun _ _ => rfl,
      hemitted.spec.fixups.sorted⟩
  rw [← hslot.bytes k (by omega)]
  show image.code.bytes.getD _ 0 = _
  rw [hcode]
  refine resolveFixups_getD hmode huntouched hs (by omega) fun x hx hext => ?_
  have hwidth : fixupWidth (emitBlocks input plan.blocks).code.bytes x = 4 := by
    rw [fixupWidth, hext]
    rfl
  rcases hslot.fixups x hx with ⟨y, hy, rfl⟩ | hbefore | hbehind
  · -- a fixup of the slot itself, which does not write the byte
    have hlt : y.cachePatchOffset < (emitLegacy input.table input.options r).bytes.length := by
      obtain ⟨block, hblock, hmem⟩ : ∃ block ∈ plan.blocks, r ∈ block.instructions := by
        have := List.mem_of_find?_eq_some hfind
        simpa [List.mem_flatten] using this
      have hspec := (slotSpec_emitSlot (hplan.records block hblock r hmem)).1
      rw [hlegacy] at hspec
      exact hspec.fixups.lt_length hy
    have hbyte := hslot.bytes y.cachePatchOffset hlt
    have hext' : isExternalFixup (emitLegacy input.table input.options r).bytes y = false := by
      rw [← hext]
      simp only [isExternalFixup, AotCodeCacheFixup.move, hbyte]
    have := hclear y hy hext'
    simp only [AotCodeCacheFixup.move]
    omega
  · omega
  · omega

end Repiu.Runtime
