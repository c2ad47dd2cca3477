import Repiu.Runtime.PlanCounters
import Repiu.Runtime.Sample
import Repiu.Runtime.UnresolvedEdges

/-!
# Builds with unresolved edges

A long-mode build neutralises the edges that leave the image, and goes through unless one of
them is the jump on inside a slot: behind the trap that is put there, verification counts what
is left of the jump.
-/

namespace Repiu.Runtime

open Repiu.X86

/-- A plan for the 64-bit back end: the decoder knows its jumps, and the slots are what their
emitters count. -/
structure CountedPlan (input : BuildInput) (plan : AotTranslationPlan) : Prop
    extends EmittablePlan input.table plan where
  rows : JumpRows input.table
  slots : ∀ r ∈ plan.records, CountedSlot input.table (emitSlot input r)

/-- What a build asks of its plan besides: the option in range, the entry planned, and no more
records than a plan can have. -/
structure BuildRequest (input : BuildInput) (plan : AotTranslationPlan) : Prop where
  valid : plan.valid = true
  caches : input.options.indirectInlineCacheEntryCount ≠ 0 ∧
    input.options.indirectInlineCacheEntryCount ≤ kInlineCacheEntryCount
  entry : plan.entryAddress ∈ plan.records.map AotInstructionRecord.guestAddress
  records : plan.records.length < instructionLimit

/-- An edge is neutralised where it is: its jump is a trap, or the whole slot it branches from. -/
def NeutralisedEdge (image : AotCodeCacheImage) (x : AotCodeCacheFixup) : Prop :=
  if x.kind = .kBlockFallthrough then image.bytes[x.cachePatchOffset - 1]? = some 0xCC
  else ∃ entry, findEntry image.addressMap x.guestSource = some entry ∧
    entry.cacheOffset ≤ x.cachePatchOffset ∧ x.cachePatchOffset + 4 ≤ entry.limit ∧
    (image.bytes.drop entry.cacheOffset).take entry.emittedLength = List.replicate entry.emittedLength 0xCC

/-- The build neutralises the edges to addresses that are not mapped, and returns a valid image
of whole instructions. -/
def BuildsNeutralised (input : BuildInput) (plan : AotTranslationPlan) : Prop :=
  ∃ image, buildAotCodeCacheImage input plan = some image ∧ image.valid = true ∧
    (∀ entry ∈ image.addressMap, (decodeAll input.table
      ((image.bytes.drop entry.cacheOffset).take entry.emittedLength)).1 = entry.emittedLength) ∧
    ∀ x ∈ image.code.fixups, isDirectEdgeFixup x.kind = true → findEntry image.addressMap x.guestTarget = none →
      NeutralisedEdge image x

/-- Where the slot of an address jumps on by itself, it jumps to a planned address. -/
def EdgesInside (input : BuildInput) (plan : AotTranslationPlan) : Prop :=
  ∀ r, (plan.records.find? fun r' => r'.guestAddress = r.guestAddress) = some r →
    ∀ target, slotFallthrough input.table input.options r = some target →
      target ∈ plan.records.map AotInstructionRecord.guestAddress

/-- A plan of the planner has few enough records. -/
theorem records_length_of_planned {table : Table} {fuel : ℕ} {source : RelocatedRuntimeImage} {entry : Word}
    {excluded : List AotExcludedGuestRange} {plan : AotTranslationPlan}
    (h : buildAotTranslationPlanFromEntry table fuel source entry excluded = some plan) :
    plan.records.length < instructionLimit := by
  have hnone : (0 : ℕ) < instructionLimit := by decide
  rcases buildAotTranslationPlanFromEntry_cases h with rfl | ⟨s, hs, rfl⟩
  · exact hnone
  · have hstart : Counted { pending := [entry] } [] :=
      ⟨⟨rfl, rfl, rfl, rfl, rfl, rfl, rfl, rfl, rfl⟩, rfl, rfl, rfl, rfl, fun _ hr => by cases hr⟩
    obtain ⟨hcounted, hlimit⟩ := (counted_invariant _).planLoop ⟨hstart, hnone⟩ hs
    have hinstructions := hcounted.instructions
    rw [List.append_nil] at hinstructions
    rw [hinstructions] at hlimit
    exact hlimit

section
variable {input : BuildInput} {plan : AotTranslationPlan}

/-- An address is mapped if it is planned. -/
theorem Emitted.findEntry_isSome_iff {done : List AotInstructionRecord} {s : BuildState} (h : Emitted input done s)
    (address : Word) :
    (findEntry s.addressMap address).isSome ↔ address ∈ done.map AotInstructionRecord.guestAddress := by
  constructor
  · intro hsome
    obtain ⟨entry, hentry, haddress⟩ := findEntry_isSome.mp hsome
    obtain ⟨r, hr, -⟩ := h.entries entry hentry
    have hfound : r.guestAddress = entry.guestAddress := by simpa using List.find?_some hr
    rw [← haddress, ← hfound]
    exact List.mem_map_of_mem (List.mem_of_find?_eq_some hr)
  · intro hmem
    obtain ⟨r, hr, haddress⟩ := List.mem_map.mp hmem
    rw [← haddress]
    exact h.mapped r hr

/-- The code of a plan is short enough for every displacement. -/
theorem InPieces.short {done : List AotInstructionRecord} {s : BuildState} {ps : List Piece}
    (h : InPieces input done (265 * done.length) s ps) (hrecords : done.length < instructionLimit) :
    s.code.bytes.length < 2 ^ 31 := by
  have hsize := h.size
  have hlimit : 265 * instructionLimit < 2 ^ 31 := by decide
  omega

/-- The jump on of a piece has a displacement if its target is planned. -/
theorem displacement_iff_planned {done : List AotInstructionRecord} {s : BuildState} {ps qs rs : List Piece}
    {p : Piece} {e : SlotEdge} (hemitted : Emitted input done s)
    (h : InPieces input done (265 * done.length) s ps) (hrecords : done.length < instructionLimit)
    (hsplit : ps = qs ++ p :: rs) (hedge : p.edge = some e) :
    e.displacement s.addressMap (piecesBytes qs).length ≠ none ↔
      e.fixup.guestTarget ∈ done.map AotInstructionRecord.guestAddress := by
  have hbytes := h.bytes
  rw [hsplit, piecesBytes_append, piecesBytes] at hbytes
  have hpiece : (piecesBytes qs).length + p.code.bytes.length ≤ s.code.bytes.length := by
    rw [hbytes, List.length_append, List.length_append]
    omega
  have hmap : ∀ entry ∈ s.addressMap, entry.cacheOffset ≤ s.code.bytes.length := by
    intro entry hentry
    have := (hemitted.spec.sites.entries_in entry hentry).2
    unfold AotAddressMapEntry.limit at this
    omega
  rw [displacement_ne_none_iff hedge hpiece (h.short hrecords) hmap, hemitted.findEntry_isSome_iff]

/-- Verification passes if every slot that jumps on jumps to a planned address. -/
theorem atEach_verified_iff {s : BuildState} {ps : List Piece} (hplan : CountedPlan input plan)
    (hemitted : Emitted input plan.records s)
    (h : InPieces input plan.records (265 * plan.records.length) s ps)
    (hrecords : plan.records.length < instructionLimit) :
    AtEach (PieceVerified input s.addressMap) 0 ps ↔ EdgesInside input plan := by
  -- one slot: the code and the count are those of its record
  have hslot : ∀ qs p rs, ps = qs ++ p :: rs → ∀ r n, p.entry = some (r, n) →
      (PieceVerified input s.addressMap (piecesBytes qs).length p ↔
        ∀ e, p.edge = some e → e.fixup.kind = .kBlockFallthrough →
          e.displacement s.addressMap (piecesBytes qs).length ≠ none) := by
    intro qs p rs hsplit r n hentry
    have hp : p ∈ ps := by
      rw [hsplit]
      exact List.mem_append_right qs List.mem_cons_self
    obtain ⟨hfirst, hcode, hcount, -⟩ := h.slots p hp r n hentry
    rw [hcount] at hentry
    exact pieceVerified_iff hplan.rows (hplan.slots r (List.mem_of_find?_eq_some hfirst)) hcode hentry _
  constructor
  · intro hall r hfirst target htarget
    have hr := List.mem_of_find?_eq_some hfirst
    obtain ⟨entry, hentry, haddress⟩ := findEntry_isSome.mp (hemitted.mapped r hr)
    rw [h.map] at hentry
    obtain ⟨qs, p, rs, hsplit, hmem⟩ := mem_piecesMap hentry
    have hp : p ∈ ps := by
      rw [hsplit]
      exact List.mem_append_right qs List.mem_cons_self
    cases hpentry : p.entry with
    | none =>
      rw [Piece.mapEntry, hpentry] at hmem
      cases hmem
    | some pair =>
      obtain ⟨r', n⟩ := pair
      rw [Piece.mapEntry, hpentry] at hmem
      have hr' : r'.guestAddress = r.guestAddress := by
        rw [← haddress, List.mem_singleton.mp hmem]
      obtain ⟨hfirst', -, -, hjump⟩ := h.slots p hp r' n hpentry
      rw [hr', hfirst] at hfirst'
      rw [← Option.some.inj hfirst', htarget] at hjump
      obtain ⟨e, hedge, he⟩ := Option.bind_eq_some_iff.mp hjump
      rw [Option.ite_none_right_eq_some, Option.some.injEq] at he
      have hverified := hall qs p rs hsplit
      rw [Nat.zero_add] at hverified
      have := (hslot qs p rs hsplit r' n hpentry).mp hverified e hedge he.1
      rw [← he.2]
      exact (displacement_iff_planned hemitted h hrecords hsplit hedge).mp this
  · intro hinside qs p rs hsplit
    rw [Nat.zero_add]
    cases hpentry : p.entry with
    | none =>
      intro r n hentry
      rw [hpentry] at hentry
      cases hentry
    | some pair =>
      obtain ⟨r, n⟩ := pair
      have hp : p ∈ ps := by
        rw [hsplit]
        exact List.mem_append_right qs List.mem_cons_self
      obtain ⟨hfirst, -, -, hjump⟩ := h.slots p hp r n hpentry
      apply (hslot qs p rs hsplit r n hpentry).mpr
      intro e hedge hkind
      have htarget : slotFallthrough input.table input.options r = some e.fixup.guestTarget := by
        rw [← hjump, Piece.jumpTarget, hedge, Option.bind_some, if_pos hkind]
      exact (displacement_iff_planned hemitted h hrecords hsplit hedge).mpr (hinside r hfirst _ htarget)

/-- An edge to an address that is not mapped is neutralised. -/
theorem neutralisedEdge_of_resolved {done : List AotInstructionRecord} {s : BuildState} {ps : List Piece}
    (hemitted : Emitted input done s) {room : ℕ} (h : InPieces input done room s ps) {image : AotCodeCacheImage}
    (hbytes : image.bytes = resolvedBytes s.addressMap 0 ps) (hmap : image.addressMap = s.addressMap)
    {x : AotCodeCacheFixup} (hx : x ∈ s.code.fixups) (hdirect : isDirectEdgeFixup x.kind = true)
    (htarget : findEntry image.addressMap x.guestTarget = none) : NeutralisedEdge image x := by
  rw [h.fixups] at hx
  obtain ⟨qs, p, rs, hsplit, y, hy, hmoved⟩ := mem_piecesFixups hx
  rw [Nat.zero_add] at hmoved
  cases hedge : p.edge with
  | none =>
    have hplain := p.plain hedge y hy
    rw [hmoved] at hdirect
    exact absurd (hplain.symm.trans hdirect) Bool.false_ne_true
  | some e =>
    have hin := p.edge_in e hedge
    have hye : y = e.fixup := by
      rw [hmoved] at hdirect
      have hmem : y ∈ p.code.fixups.filter fun x => isDirectEdgeFixup x.kind := List.mem_filter.mpr ⟨hy, hdirect⟩
      rwa [hin.fixups, List.mem_singleton] at hmem
    rw [hye] at hmoved
    have hdisplacement : e.displacement s.addressMap (piecesBytes qs).length = none := by
      rw [hmoved, hmap] at htarget
      rw [SlotEdge.displacement, show findEntry s.addressMap e.fixup.guestTarget = none from htarget]
      rfl
    obtain ⟨front, back, hpiece, hfront⟩ := @resolvedBytes_piece s.addressMap qs rs p
    rw [← hsplit, ← hbytes] at hpiece
    unfold NeutralisedEdge
    rw [hmoved]
    show if e.fixup.kind = .kBlockFallthrough then
        image.bytes[(piecesBytes qs).length + e.fixup.cachePatchOffset - 1]? = some 0xCC
      else ∃ entry, findEntry image.addressMap e.fixup.guestSource = some entry ∧
        entry.cacheOffset ≤ (piecesBytes qs).length + e.fixup.cachePatchOffset ∧
        (piecesBytes qs).length + e.fixup.cachePatchOffset + 4 ≤ entry.limit ∧
        (image.bytes.drop entry.cacheOffset).take entry.emittedLength = List.replicate entry.emittedLength 0xCC
    have hpatch := hin.patch
    by_cases hkind : e.fixup.kind = .kBlockFallthrough
    · rw [if_pos hkind]
      rw [Piece.resolved, hedge] at hpiece
      dsimp only at hpiece
      rw [hdisplacement] at hpiece
      dsimp only at hpiece
      rw [if_pos hkind] at hpiece
      rw [hin.opcode_jumpsOn hkind, List.length_singleton] at hpatch
      have hoffset : (piecesBytes qs).length + e.fixup.cachePatchOffset - 1 = (front ++ e.head).length := by
        rw [hpatch, List.length_append, hfront]
        omega
      have hsplitBytes : image.bytes = (front ++ e.head) ++ 0xCC :: (le32 0 ++ e.tail ++ back) := by
        rw [hpiece]
        simp only [List.append_assoc, List.cons_append, List.nil_append]
      rw [hoffset, hsplitBytes, getElem?_middle]
    · rw [if_neg hkind]
      cases hentry : p.entry with
      | none => exact absurd (p.jumps_on hentry e hedge) hkind
      | some pair =>
        obtain ⟨r, n⟩ := pair
        have hmem := mapEntry_mem hsplit hentry
        rw [← h.map] at hmem
        have hlength := e.bytes_length 0
        rw [← hin.bytes] at hlength
        refine ⟨⟨r.guestAddress, (piecesBytes qs).length, r.length, p.code.bytes.length⟩, ?_,
          Nat.le_add_right _ _, ?_, ?_⟩
        · rw [hmap, p.source r n hentry e hedge hkind]
          exact findEntry_of_mem hemitted.distinct hmem
        · show (piecesBytes qs).length + e.fixup.cachePatchOffset + 4 ≤
            (piecesBytes qs).length + p.code.bytes.length
          omega
        · rw [Piece.resolved, hedge] at hpiece
          dsimp only at hpiece
          rw [hdisplacement] at hpiece
          dsimp only at hpiece
          rw [if_neg hkind] at hpiece
          dsimp only
          rw [hpiece, ← hfront, List.append_assoc, List.drop_left]
          exact List.take_left' List.length_replicate

/-- Verification has decoded every entry to its end. -/
theorem decodeAll_of_entriesVerified (hmode : input.options.enableLongModeEmission = true) {bytes : List Byte}
    {map : List AotAddressMapEntry} {counts : List ℕ} (h : entriesVerified input bytes map counts = true) :
    ∀ entry ∈ map, (decodeAll input.table
      ((bytes.drop entry.cacheOffset).take entry.emittedLength)).1 = entry.emittedLength := by
  induction map generalizing counts with
  | nil =>
    intro entry hentry
    cases hentry
  | cons e es ih =>
    rw [entriesVerified, Bool.and_eq_true] at h
    intro entry hentry
    rcases List.mem_cons.mp hentry with heq | hrest
    · have hverified := h.1
      rw [entryVerified, hmode] at hverified
      have hrun := (of_decide_eq_true hverified).1
      have hlength : ((bytes.drop e.cacheOffset).take e.emittedLength).length ≤ e.emittedLength :=
        List.length_take_le _ _
      rw [if_pos rfl, decodeRun_fuel .long64 hlength] at hrun
      rw [heq]
      exact hrun
    · exact ih h.2 entry hrest

/-- Behind resolution a build depends on verification only. -/
theorem build_of_resolved (hplan : CountedPlan input plan) (hrequest : BuildRequest input plan) {r : ResolveState}
    (hrun : resolveFixups input (emitBlocks input plan.blocks).addressMap (emitBlocks input plan.blocks).code.fixups
      ⟨{ (emitBlocks input plan.blocks).code with fixups := [] },
        (emitBlocks input plan.blocks).entryInstructions⟩ = some r) :
    ∃ image : AotCodeCacheImage, image.valid = true ∧ image.code = r.code ∧
      image.addressMap = (emitBlocks input plan.blocks).addressMap ∧
      buildAotCodeCacheImage input plan =
        if entriesVerified input r.code.bytes (emitBlocks input plan.blocks).addressMap r.entryInstructions then
          some image
        else none := by
  have hemitted := emitted_emitBlocks hplan.records
  have hkeeps : Keeps (emitBlocks input plan.blocks).code r.code :=
    resolveFixups_keeps ((Keeps.refl _).rewrite [] rfl) hrun
  obtain ⟨entry, hentry⟩ := Option.isSome_iff_exists.mp
    ((hemitted.findEntry_isSome_iff plan.entryAddress).mpr hrequest.entry)
  have hbytes : r.code.bytes ≠ [] := by
    intro hnil
    have hin := hemitted.spec.sites.entries_in entry (List.mem_of_find?_eq_some hentry)
    have hlength := hkeeps.length
    rw [hnil, List.length_nil] at hlength
    unfold AotAddressMapEntry.limit at hin
    omega
  have hstart : ¬(¬plan.valid = true ∨ input.options.indirectInlineCacheEntryCount = 0 ∨
      kInlineCacheEntryCount < input.options.indirectInlineCacheEntryCount) := by
    obtain ⟨hsome, hfew⟩ := hrequest.caches
    rw [hrequest.valid]
    rintro (hinvalid | hzero | hmany)
    · exact hinvalid rfl
    · exact hsome hzero
    · exact absurd hfew (Nat.not_le.mpr hmany)
  refine ⟨⟨true, entry.cacheOffset, r.code, plan.codeModeRanges, (emitBlocks input plan.blocks).addressMap,
    input.options⟩, rfl, rfl, rfl, ?_⟩
  unfold buildAotCodeCacheImage
  dsimp only
  rw [if_neg hstart, hrun]
  dsimp only
  rw [hentry]
  dsimp only
  by_cases hverified : entriesVerified input r.code.bytes (emitBlocks input plan.blocks).addressMap
      r.entryInstructions = true
  · rw [if_pos hverified, if_neg]
    rw [not_or, not_not]
    exact ⟨hbytes, hverified⟩
  · rw [if_neg hverified, if_pos (Or.inr hverified)]

/-- A long-mode build neutralises its unresolved edges exactly if the slots that jump on by
themselves jump to planned addresses. -/
theorem build_neutralises_iff (hmode : input.options.enableLongModeEmission = true)
    (hplan : CountedPlan input plan) (hrequest : BuildRequest input plan) :
    BuildsNeutralised input plan ↔ EdgesInside input plan := by
  have hemitted := emitted_emitBlocks hplan.records
  obtain ⟨ps, hpieces⟩ := inPieces_emitBlocks hmode hplan.records
  obtain ⟨r, hrun, hbytes, hcounts⟩ := resolves_emitted hmode hpieces hemitted.distinct
  obtain ⟨image, hvalid, hcode, hmap, hbuild⟩ := build_of_resolved hplan hrequest hrun
  have hverified := @entriesVerified_pieces input (emitBlocks input plan.blocks).addressMap hmode ps []
  rw [List.nil_append, List.length_nil, ← hpieces.map, ← hbytes, ← hcounts,
    atEach_verified_iff hplan hemitted hpieces hrequest.records] at hverified
  rw [← hverified]
  constructor
  · intro ⟨image', himage', _⟩
    rw [hbuild, Option.ite_none_right_eq_some] at himage'
    exact himage'.1
  · intro hpass
    rw [if_pos hpass] at hbuild
    refine ⟨image, hbuild, hvalid, ?_, ?_⟩
    · rw [hmap, AotCodeCacheImage.bytes, hcode]
      exact decodeAll_of_entriesVerified hmode hpass
    · intro x hx hdirect htarget
      rw [hcode] at hx
      have hbytes' : image.bytes = resolvedBytes (emitBlocks input plan.blocks).addressMap 0 ps := by
        rw [AotCodeCacheImage.bytes, hcode, hbytes]
      rcases resolveFixups_visited hmode hrun x hx with hnone | ⟨y, hy, hxy⟩
      · cases hnone
      · -- resolution only marks a fixup
        have hsame : NeutralisedEdge image y → NeutralisedEdge image x := by
          rcases hxy with hxy | hxy
          · rw [hxy]
            exact id
          · rw [hxy]
            exact id
        have hkind : x.kind = y.kind := by rcases hxy with hxy | hxy <;> rw [hxy]
        have hguest : x.guestTarget = y.guestTarget := by rcases hxy with hxy | hxy <;> rw [hxy]
        rw [hkind] at hdirect
        rw [hguest] at htarget
        exact hsame (neutralisedEdge_of_resolved hemitted hpieces hbytes' hmap hy hdirect htarget)

end

/-! ## Two small guests -/

/-- The mnemonics of the near conditional jumps, in opcode order. -/
def conditionMnemonics : List Mnemonic :=
  [.jo, .jno, .jb, .jnb, .jz, .jnz, .jbe, .jnbe, .js, .jns, .jp, .jnp, .jl, .jnl, .jle, .jnle]

/-- Rows of the two-byte map: `movzx` and the near conditional jumps. -/
def twoByteRow (opcode : Byte) : Option Definition :=
  if opcode = 0xB7 then some (row .movzx [dst (.modrmReg .gprOsz), src (.modrmRm .gpr16)])
  else if 0x80 ≤ opcode ∧ opcode ≤ 0x8F then
    some (row (conditionMnemonics.getD (opcode.toNat - 0x80) .jo) [src (.imm 0)] [relZ] .condBr)
  else none

/-- The row of `add r/m8, r8`. -/
def addRow : Definition :=
  { row (.other 0) [dst (.modrmRm .gpr8), src (.modrmReg .gpr8)] with operandSizeMap := 1 }

/-- The sample table with these rows. -/
def jumpTable : Table where
  hasModrm := fun _ encoding map opcode => encoding = .legacy ∧
    ((map = .default ∧ opcode ∈ 0x00 :: modrmOpcodes) ∨ (map = .m0F ∧ opcode = 0xB7))
  lookup := fun _ key =>
    if key.encoding = .legacy ∧ key.map = .m0F then twoByteRow key.opcode
    else if key.encoding = .legacy ∧ key.map = .default then
      if key.opcode = 0x00 then some addRow else defaultRow key.opcode (key.modrm.getD 0)
    else none

theorem jumpRows_jumpTable : JumpRows jumpTable where
  jump := by
    intro d tail
    exact ⟨_, rfl, rfl⟩
  conditional := by
    intro c hc d tail
    fin_cases hc <;> exact ⟨_, rfl, rfl⟩
  trap := by
    intro tail
    exact ⟨_, rfl, rfl⟩
  add := by
    intro tail
    exact ⟨_, rfl, rfl⟩

theorem conditionMnemonics_ne_push (n : ℕ) : conditionMnemonics.getD n .jo ≠ .push := by
  rw [List.getD_eq_getElem?_getD]
  cases h : conditionMnemonics[n]? with
  | none => decide
  | some m =>
    have hm := List.mem_of_getElem? h
    rw [Option.getD_some]
    intro hpush
    rw [hpush] at hm
    revert hm
    decide

theorem twoByteRow_ne_push {opcode : Byte} {d : Definition} (h : twoByteRow opcode = some d) :
    d.mnemonic ≠ .push := by
  unfold twoByteRow at h
  split_ifs at h
  · rw [← Option.some.inj h]
    intro hpush
    cases hpush
  · rw [← Option.some.inj h, row]
    dsimp only
    exact conditionMnemonics_ne_push _

theorem pushRows_jumpTable : PushRows jumpTable := by
  apply pushRows_of_ne_push
  intro mode key d h
  simp only [jumpTable] at h
  split_ifs at h
  · exact twoByteRow_ne_push h
  · rw [← Option.some.inj h]
    intro hpush
    cases hpush
  · exact defaultRow_ne_push h

/-- A slot around one jump on, from the instructions in front of it and behind it. -/
theorem countedSlot_of_edge {table : Table} {slot : LongModeSlot} {e : SlotEdge} (h : e.In slot.code)
    (hkind : e.fixup.kind ≠ .kConditionalBranch) {m n : ℕ} (hhead : AreInstructions table e.head m)
    (htail : AreInstructions table e.tail n) (hcount : m + 1 + n = slot.instructionCount) :
    CountedSlot table slot where
  plain := by
    intro hplain
    have hmem : e.fixup ∈ slot.code.fixups.filter fun x => isDirectEdgeFixup x.kind := by
      rw [h.fixups]
      exact List.mem_singleton_self _
    have := hplain e.fixup (List.mem_filter.mp hmem).1
    rw [h.direct] at this
    cases this
  edge := by
    intro e' h'
    have hfixup : e'.fixup = e.fixup := by
      have := h'.fixups.symm.trans h.fixups
      exact List.cons.inj this |>.1
    have hopcode : ∀ x : SlotEdge, x.In slot.code → x.fixup.kind ≠ .kConditionalBranch → x.opcode = [0xE9] := by
      intro x hx hne
      exact hx.opcode.resolve_right fun hbranch => hne hbranch.1
    have hopcode₁ := hopcode e h hkind
    have hopcode₂ := hopcode e' h' (hfixup ▸ hkind)
    have hlength : e'.head.length = e.head.length := by
      have h₁ := h.patch
      have h₂ := h'.patch
      rw [hopcode₁] at h₁
      rw [hopcode₂, hfixup, h₁] at h₂
      exact (Nat.add_right_cancel h₂).symm
    have hbytes := h'.bytes.symm.trans h.bytes
    rw [SlotEdge.bytes, SlotEdge.bytes, hopcode₁, hopcode₂] at hbytes
    simp only [List.append_assoc] at hbytes
    obtain ⟨hheads, hrest⟩ := List.append_inj hbytes hlength
    have htails : e'.tail = e.tail := by simpa using hrest
    exact ⟨m, n, hheads ▸ hhead, htails ▸ htail, hcount⟩

/-- The 64-bit back end with guarded segment reads. -/
def edgeInput : BuildInput :=
  ⟨jumpTable, {}, { enableLongModeEmission := true, enableGuardedSegmentRead := true }⟩

/-- A guest at `0x1000`, padded to the decoder's window. -/
def edgeSource (bytes : List Byte) : RelocatedRuntimeImage :=
  { valid := true
    objects :=
      [{ relocatedBaseAddress := 0x1000
         virtualSize := 24
         flags := 0
         bytes := bytes ++ List.replicate (24 - bytes.length) 0 }]
    codeModeRanges := [] }

/-- `mov eax, ds` in front of a jump out of the image. -/
def leavingPlan : AotTranslationPlan :=
  (buildAotTranslationPlanFromEntry jumpTable 8 (edgeSource [0x8C, 0xD8, 0xE9, 0x00, 0x10, 0x00, 0x00]) 0x1000
    []).get (by decide +kernel)

/-- `mov eax, ds` in front of bytes that are no instruction. -/
def endingPlan : AotTranslationPlan :=
  (buildAotTranslationPlanFromEntry jumpTable 8 (edgeSource [0x8C, 0xD8, 0x0F, 0x04]) 0x1000 []).get
    (by decide +kernel)

/-- The record of `mov eax, ds`. -/
def readRecord : AotInstructionRecord :=
  { guestAddress := 0x1000
    fallthroughTarget := 0x1002
    kind := .kGuardedSegmentRead
    length := 2
    segmentRegister := 3
    gprRegister := 0
    mnemonic := .mov
    bytes := [0x8C, 0xD8] }

/-- The record of the jump. -/
def leaveRecord : AotInstructionRecord :=
  { guestAddress := 0x1002
    directTarget := 0x2007
    fallthroughTarget := 0x1007
    kind := .kDirectJump
    length := 5
    mnemonic := .jmp
    bytes := [0xE9, 0x00, 0x10, 0x00, 0x00] }

theorem endingPlan_evaluated :
    endingPlan.records = [readRecord] ∧ endingPlan.valid = true ∧ endingPlan.entryAddress = 0x1000 := by
  decide

theorem leavingPlan_evaluated :
    leavingPlan.records = [readRecord, leaveRecord] ∧ leavingPlan.valid = true ∧ leavingPlan.entryAddress = 0x1000 := by
  decide

theorem records_leavingPlan : leavingPlan.records = [readRecord, leaveRecord] := leavingPlan_evaluated.1

theorem planned_endingPlan : buildAotTranslationPlanFromEntry jumpTable 8
    (edgeSource [0x8C, 0xD8, 0x0F, 0x04]) 0x1000 [] = some endingPlan :=
  (Option.some_get _).symm

theorem planned_leavingPlan : buildAotTranslationPlanFromEntry jumpTable 8
    (edgeSource [0x8C, 0xD8, 0xE9, 0x00, 0x10, 0x00, 0x00]) 0x1000 [] = some leavingPlan :=
  (Option.some_get _).symm

-- the kernel evaluates these, the elaborator should not
attribute [irreducible] endingPlan leavingPlan

/-- The slot of `mov eax, ds` is a load, the jump on and a trap. -/
theorem countedSlot_readRecord : CountedSlot jumpTable (emitSlot edgeInput readRecord) := by
  have hedge : (⟨edgeFixup .kBlockFallthrough readRecord 0x1002 10,
      [0x67, 0x0F, 0xB7, 0x04, 0x25, 0x00, 0x00, 0x00, 0x00], [0xE9], [0xCC]⟩ : SlotEdge).In
        (emitSlot edgeInput readRecord).code :=
    ⟨by decide, by decide, rfl, Or.inl rfl⟩
  have hload : IsInstruction jumpTable [0x67, 0x0F, 0xB7, 0x04, 0x25, 0x00, 0x00, 0x00, 0x00] := by
    intro tail
    exact ⟨_, rfl, rfl⟩
  apply countedSlot_of_edge hedge _ hload.one jumpRows_jumpTable.trap.one
  · decide
  · decide

/-- The slot of the jump is a jump. -/
theorem countedSlot_leaveRecord : CountedSlot jumpTable (emitSlot edgeInput leaveRecord) := by
  have hedge : (⟨edgeFixup .kDirectJump leaveRecord 0x2007 1, [], [0xE9], []⟩ : SlotEdge).In
      (emitSlot edgeInput leaveRecord).code :=
    ⟨by decide, by decide, rfl, Or.inl rfl⟩
  apply countedSlot_of_edge hedge _ AreInstructions.nil AreInstructions.nil
  · decide
  · decide

theorem countedPlan_endingPlan : CountedPlan edgeInput endingPlan where
  push := pushRows_jumpTable
  planned := planned_records planned_endingPlan
  rows := jumpRows_jumpTable
  slots := by
    rw [endingPlan_evaluated.1]
    intro r hr
    rw [List.mem_singleton.mp hr]
    exact countedSlot_readRecord

theorem countedPlan_leavingPlan : CountedPlan edgeInput leavingPlan where
  push := pushRows_jumpTable
  planned := planned_records planned_leavingPlan
  rows := jumpRows_jumpTable
  slots := by
    rw [records_leavingPlan]
    intro r hr
    rcases List.mem_cons.mp hr with hr | hr
    · rw [hr]
      exact countedSlot_readRecord
    · rw [List.mem_singleton.mp hr]
      exact countedSlot_leaveRecord

theorem buildRequest_endingPlan : BuildRequest edgeInput endingPlan := by
  obtain ⟨hrecords, hvalid, hentry⟩ := endingPlan_evaluated
  refine ⟨hvalid, by decide, ?_, records_length_of_planned planned_endingPlan⟩
  rw [hrecords, hentry]
  decide

theorem buildRequest_leavingPlan : BuildRequest edgeInput leavingPlan := by
  obtain ⟨hrecords, hvalid, hentry⟩ := leavingPlan_evaluated
  refine ⟨hvalid, by decide, ?_, records_length_of_planned planned_leavingPlan⟩
  rw [hrecords, hentry]
  decide

/-- The jump out of the image is neutralised, and the jump on from `mov eax, ds` is filled in. -/
theorem build_neutralises_leavingPlan : BuildsNeutralised edgeInput leavingPlan := by
  apply (build_neutralises_iff rfl countedPlan_leavingPlan buildRequest_leavingPlan).mpr
  rw [EdgesInside, records_leavingPlan]
  intro r hfirst target htarget
  rcases List.mem_cons.mp (List.mem_of_find?_eq_some hfirst) with hr | hr
  · have hnext : slotFallthrough edgeInput.table edgeInput.options readRecord = some 0x1002 := by decide +kernel
    rw [hr, hnext] at htarget
    rw [← Option.some.inj htarget]
    exact List.mem_cons_of_mem _ List.mem_cons_self
  · rw [List.mem_singleton.mp hr] at htarget
    cases htarget

/-- With nothing planned behind `mov eax, ds`, its jump on fails the build. -/
theorem build_fails_endingPlan :
    edgeInput.options.enableLongModeEmission = true ∧ CountedPlan edgeInput endingPlan ∧
      BuildRequest edgeInput endingPlan ∧ buildAotCodeCacheImage edgeInput endingPlan = none :=
  ⟨rfl, countedPlan_endingPlan, buildRequest_endingPlan, by decide +kernel⟩

end Repiu.Runtime
