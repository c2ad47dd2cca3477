import Repiu.Runtime.SlotEdges

/-!
# Long-mode code in pieces

The code of the 64-bit back end is a run of pieces, the slots of its records and the jumps
between them.  Resolution works on each piece by itself: it fills in the edge of the piece, or
neutralises it.
-/

namespace Repiu.Runtime

open Repiu.X86

/-! ## Pieces -/

/-- A piece of code: a slot with its record and instruction count, or a jump between slots. -/
structure Piece where
  code : Fragment
  entry : Option (AotInstructionRecord × ℕ)
  edge : Option SlotEdge
  plain : edge = none → ∀ x ∈ code.fixups, isDirectEdgeFixup x.kind = false
  edge_in : ∀ e, edge = some e → e.In code
  jumps_on : entry = none → ∀ e, edge = some e → e.fixup.kind = .kBlockFallthrough
  source : ∀ r n, entry = some (r, n) → ∀ e, edge = some e → e.fixup.kind ≠ .kBlockFallthrough →
    e.fixup.guestSource = r.guestAddress

namespace Piece

/-- The address-map entry of a piece at an offset. -/
def mapEntry (base : ℕ) (p : Piece) : List AotAddressMapEntry :=
  (p.entry.map fun e => ⟨e.1.guestAddress, base, e.1.length, p.code.bytes.length⟩).toList

/-- The instruction count of a piece. -/
def counts (p : Piece) : List ℕ := (p.entry.map Prod.snd).toList

theorem mapEntry_length (base : ℕ) (p : Piece) : (p.mapEntry base).length = p.counts.length := by
  unfold mapEntry counts
  cases p.entry <;> rfl

end Piece

/-- The bytes of a run of pieces. -/
def piecesBytes : List Piece → List Byte
  | [] => []
  | p :: ps => p.code.bytes ++ piecesBytes ps

/-- The fixups of a run of pieces that starts at an offset. -/
def piecesFixups : ℕ → List Piece → List AotCodeCacheFixup
  | _, [] => []
  | base, p :: ps =>
    p.code.fixups.map (AotCodeCacheFixup.move base) ++ piecesFixups (base + p.code.bytes.length) ps

/-- The address map of a run of pieces that starts at an offset. -/
def piecesMap : ℕ → List Piece → List AotAddressMapEntry
  | _, [] => []
  | base, p :: ps => p.mapEntry base ++ piecesMap (base + p.code.bytes.length) ps

/-- The instruction counts of a run of pieces. -/
def piecesCounts : List Piece → List ℕ
  | [] => []
  | p :: ps => p.counts ++ piecesCounts ps

section
variable (ps qs : List Piece) (base : ℕ)

theorem piecesBytes_append : piecesBytes (ps ++ qs) = piecesBytes ps ++ piecesBytes qs := by
  induction ps with
  | nil => rfl
  | cons p ps ih => rw [List.cons_append, piecesBytes, piecesBytes, ih, List.append_assoc]

theorem piecesFixups_append : piecesFixups base (ps ++ qs) =
    piecesFixups base ps ++ piecesFixups (base + (piecesBytes ps).length) qs := by
  induction ps generalizing base with
  | nil => rfl
  | cons p ps ih =>
    rw [List.cons_append, piecesFixups, piecesFixups, piecesBytes, ih, List.append_assoc,
      List.length_append, Nat.add_assoc]

theorem piecesMap_append : piecesMap base (ps ++ qs) =
    piecesMap base ps ++ piecesMap (base + (piecesBytes ps).length) qs := by
  induction ps generalizing base with
  | nil => rfl
  | cons p ps ih =>
    rw [List.cons_append, piecesMap, piecesMap, piecesBytes, ih, List.append_assoc,
      List.length_append, Nat.add_assoc]

theorem piecesCounts_append : piecesCounts (ps ++ qs) = piecesCounts ps ++ piecesCounts qs := by
  induction ps with
  | nil => rfl
  | cons p ps ih => rw [List.cons_append, piecesCounts, piecesCounts, ih, List.append_assoc]

theorem piecesMap_length : (piecesMap base ps).length = (piecesCounts ps).length := by
  induction ps generalizing base with
  | nil => rfl
  | cons p ps ih =>
    rw [piecesMap, piecesCounts, List.length_append, List.length_append, Piece.mapEntry_length, ih]

end

/-! ## Emission in pieces -/

/-- The address a piece jumps on to. -/
def Piece.jumpTarget (p : Piece) : Option Word :=
  p.edge.bind fun e => if e.fixup.kind = .kBlockFallthrough then some e.fixup.guestTarget else none

/-- A jump between slots is a piece. -/
def jumpPiece (source target : Word) : Piece where
  code := emitBlockFallthrough source target
  entry := none
  edge := some
    { fixup := { kind := .kBlockFallthrough, guestSource := source, guestTarget := target
                 cachePatchOffset := 1 }
      head := []
      opcode := [0xE9]
      tail := [] }
  plain := by
    intro h
    cases h
  edge_in := by
    intro e h
    rw [← Option.some.inj h]
    exact ⟨rfl, rfl, rfl, Or.inl rfl⟩
  jumps_on := by
    intro _ e h
    rw [← Option.some.inj h]
  source := by
    intro r n h
    cases h

/-- The slot of a record is a piece. -/
theorem exists_slotPiece (input : BuildInput) {record : AotInstructionRecord}
    (hmode : input.options.enableLongModeEmission = true) (hplanned : Planned input.table record) :
    ∃ p : Piece, p.code = (emitSlot input record).code ∧
      p.entry = some (record, (emitSlot input record).instructionCount) ∧
      p.jumpTarget = slotFallthrough input.table input.options record := by
  have hshape := @slotShape_emitLongMode _ input.host input.options _ hplanned
  rw [emitSlot, if_pos hmode]
  generalize slotFallthrough input.table input.options record = target at hshape
  generalize emitLongMode input.table input.host input.options record = slot at hshape
  have hentry : some (record, slot.instructionCount) ≠ none := by
    intro h
    cases h
  cases hshape with
  | plain hnone =>
    refine ⟨⟨slot.code, some (record, slot.instructionCount), none, fun _ => hnone, ?_, ?_, ?_⟩, rfl, rfl, rfl⟩
    · intro e h
      cases h
    · intro _ e h
      cases h
    · intro _ _ _ e h
      cases h
  | branch e hin hkind hsource =>
    refine ⟨⟨slot.code, some (record, slot.instructionCount), some e, ?_, ?_, fun h => absurd h hentry, ?_⟩,
      rfl, rfl, if_neg hkind⟩
    · intro h
      cases h
    · intro e' h
      rw [← Option.some.inj h]
      exact hin
    · intro r n h e' he' _
      cases h
      rw [← Option.some.inj he']
      exact hsource
  | jumpsOn e hin hkind htarget =>
    refine ⟨⟨slot.code, some (record, slot.instructionCount), some e, ?_, ?_, fun h => absurd h hentry, ?_⟩,
      rfl, rfl, (if_pos hkind).trans (congrArg some htarget)⟩
    · intro h
      cases h
    · intro e' h
      rw [← Option.some.inj h]
      exact hin
    · intro r n _ e' he' hne
      rw [← Option.some.inj he'] at hne
      exact absurd hkind hne

/-- The emitted code in pieces: a slot for the first record at each address, within a number of
bytes that leaves room for the pending edge. -/
structure InPieces (input : BuildInput) (done : List AotInstructionRecord) (room : ℕ) (s : BuildState)
    (ps : List Piece) : Prop where
  bytes : s.code.bytes = piecesBytes ps
  fixups : s.code.fixups = piecesFixups 0 ps
  map : s.addressMap = piecesMap 0 ps
  counts : s.entryInstructions = piecesCounts ps
  slots : ∀ p ∈ ps, ∀ r n, p.entry = some (r, n) →
    (done.find? fun r' => r'.guestAddress = r.guestAddress) = some r ∧ p.code = (emitSlot input r).code ∧
      n = (emitSlot input r).instructionCount ∧ p.jumpTarget = slotFallthrough input.table input.options r
  size : s.code.bytes.length + (if s.pending.isSome then 5 else 0) ≤ room

section
variable {input : BuildInput} {done : List AotInstructionRecord} {room : ℕ} {s : BuildState} {ps : List Piece}

theorem piecesBytes_singleton (p : Piece) : piecesBytes [p] = p.code.bytes := List.append_nil _

/-- Nothing behind the pieces, and another pending edge. -/
theorem InPieces.pend (h : InPieces input done room s ps) (pending : Option (Word × Word))
    (hsize : s.code.bytes.length + (if pending.isSome then 5 else 0) ≤ room) :
    InPieces input done room { s with code := s.code.append {}, pending := pending } ps where
  bytes := (List.append_nil _).trans h.bytes
  fixups := (List.append_nil _).trans h.fixups
  map := h.map
  counts := h.counts
  slots := h.slots
  size := by
    show (s.code.append {}).bytes.length + _ ≤ _
    rw [Fragment.append_bytes_length]
    exact hsize

/-- A jump behind the pieces. -/
theorem InPieces.jump (h : InPieces input done room s ps) (source target : Word) (pending : Option (Word × Word))
    (hsize : s.code.bytes.length + 5 + (if pending.isSome then 5 else 0) ≤ room) :
    InPieces input done room
      { s with code := s.code.append (emitBlockFallthrough source target), pending := pending }
      (ps ++ [jumpPiece source target]) where
  bytes := by
    rw [piecesBytes_append, piecesBytes_singleton, ← h.bytes]
    rfl
  fixups := by
    rw [piecesFixups_append, ← h.fixups, ← h.bytes, Nat.zero_add]
    rfl
  map := by
    rw [piecesMap_append, ← h.map]
    exact (List.append_nil _).symm
  counts := by
    rw [piecesCounts_append, ← h.counts]
    exact (List.append_nil _).symm
  slots := by
    intro p hp r n hentry
    rcases List.mem_append.mp hp with hp | hp
    · exact h.slots p hp r n hentry
    · rw [List.mem_singleton.mp hp] at hentry
      cases hentry
  size := by
    show (s.code.append (emitBlockFallthrough source target)).bytes.length + _ ≤ _
    rw [Fragment.append_bytes_length]
    exact hsize

theorem InPieces.mono (h : InPieces input done room s ps) (record : AotInstructionRecord) {room' : ℕ}
    (hroom : room ≤ room') : InPieces input (done ++ [record]) room' s ps where
  bytes := h.bytes
  fixups := h.fixups
  map := h.map
  counts := h.counts
  slots := by
    intro p hp r n hentry
    obtain ⟨hfirst, hrest⟩ := h.slots p hp r n hentry
    exact ⟨by rw [List.find?_append, hfirst, Option.some_or], hrest⟩
  size := h.size.trans hroom

/-- The pending edge is a piece, or nothing. -/
theorem InPieces.pendingEdge (h : InPieces input done room s ps) (address : Word) :
    ∃ ps', InPieces input done room
      { s with code := s.code.append (pendingEdge s.pending address), pending := none } ps' := by
  have hsize := h.size
  have hnothing : InPieces input done room { s with code := s.code.append {}, pending := none } ps :=
    h.pend none (le_of_add_le_left hsize)
  cases hpending : s.pending with
  | none => exact ⟨ps, hnothing⟩
  | some edge =>
    obtain ⟨source, target⟩ := edge
    rw [hpending] at hsize
    by_cases htarget : target ≠ address
    · refine ⟨ps ++ [jumpPiece source target], ?_⟩
      rw [Runtime.pendingEdge, if_pos htarget]
      exact h.jump source target none hsize
    · refine ⟨ps, ?_⟩
      rw [Runtime.pendingEdge, if_neg htarget]
      exact hnothing

/-- One record: it is mapped already, or its slot becomes the last piece. -/
theorem InPieces.emitRecord (hmode : input.options.enableLongModeEmission = true)
    (h : InPieces input done room s ps) (hemitted : Emitted input done s) {record : AotInstructionRecord}
    (hrecord : Emittable input record) :
    ∃ ps', InPieces input (done ++ [record]) (room + 260) (emitRecord input s record) ps' := by
  by_cases hmapped : (findEntry s.addressMap record.guestAddress).isSome
  · rw [Runtime.emitRecord, if_pos hmapped]
    exact ⟨ps, h.mono record (Nat.le_add_right _ _)⟩
  obtain ⟨ps', h'⟩ := h.pendingEdge record.guestAddress
  obtain ⟨p, hcode, hentry, htarget⟩ := exists_slotPiece input hmode hrecord.planned
  have hshort := (slotSpec_emitSlot hrecord).2
  refine ⟨ps' ++ [p], ?_⟩
  rw [Runtime.emitRecord, if_neg hmapped]
  dsimp only
  refine ⟨?_, ?_, ?_, ?_, ?_, ?_⟩
  · rw [Fragment.append_bytes, piecesBytes_append, piecesBytes_singleton, hcode, ← h'.bytes]
  · rw [piecesFixups_append, ← h'.fixups, ← h'.bytes, Nat.zero_add, piecesFixups, piecesFixups, List.append_nil,
      hcode]
    rfl
  · rw [piecesMap_append, ← h'.map, ← h'.bytes, Nat.zero_add, piecesMap, piecesMap, List.append_nil,
      Piece.mapEntry, hentry, hcode, Nat.mod_eq_of_lt (by omega)]
    rfl
  · rw [if_pos hmode, piecesCounts_append, ← h'.counts, piecesCounts, piecesCounts, List.append_nil,
      Piece.counts, hentry]
    rfl
  · intro q hq r n hr
    rcases List.mem_append.mp hq with hq | hq
    · exact (h'.mono record le_rfl).slots q hq r n hr
    · rw [List.mem_singleton.mp hq, hentry, Option.some.injEq, Prod.mk.injEq] at hr
      rw [List.mem_singleton.mp hq, ← hr.1, ← hr.2]
      have hnew : (done.find? fun r' => r'.guestAddress = record.guestAddress) = none := by
        rw [List.find?_eq_none]
        intro r' hr' heq
        have := hemitted.mapped r' hr'
        rw [of_decide_eq_true heq] at this
        exact hmapped this
      refine ⟨?_, hcode, rfl, htarget⟩
      rw [List.find?_append, hnew, Option.none_or]
      simp
  · have hsize := h'.size
    simp only [Option.isSome_none, Bool.false_eq_true, if_false] at hsize ⊢
    rw [Fragment.append_bytes_length]
    omega

theorem InPieces.emitRecords (hmode : input.options.enableLongModeEmission = true)
    (h : InPieces input done room s ps) (hemitted : Emitted input done s) (records : List AotInstructionRecord)
    (hrecords : ∀ r ∈ records, Emittable input r) :
    ∃ ps', InPieces input (done ++ records) (room + 260 * records.length)
      (records.foldl (Runtime.emitRecord input) s) ps' := by
  induction records generalizing done room s ps with
  | nil => exact ⟨ps, by rwa [List.append_nil]⟩
  | cons r rs ih =>
    have hr := hrecords r List.mem_cons_self
    obtain ⟨ps', h'⟩ := h.emitRecord hmode hemitted hr
    have := ih h' (hemitted.emitRecord hr) fun x hx => hrecords x (List.mem_cons_of_mem r hx)
    rwa [List.append_assoc, show room + 260 + 260 * rs.length = room + 260 * (r :: rs).length by
      rw [List.length_cons]
      omega] at this

/-- The way on from a block is a jump, or it is left pending. -/
theorem InPieces.closeBlock (hmode : input.options.enableLongModeEmission = true)
    (h : InPieces input done room s ps) (block : AotBasicBlock) :
    ∃ ps', InPieces input done (room + if block.instructions = [] then 0 else 5) (closeBlock input s block) ps' := by
  have hsize := h.size
  have hsame : ∀ more, ∃ ps', InPieces input done (room + more) s ps' :=
    fun more => ⟨ps, h.bytes, h.fixups, h.map, h.counts, h.slots, hsize.trans (Nat.le_add_right _ _)⟩
  by_cases hne : block.instructions = []
  · rw [if_pos hne, Runtime.closeBlock, hne]
    exact hsame 0
  rw [if_neg hne]
  unfold Runtime.closeBlock
  split
  · rename_i tail last _ _
    split
    · exact hsame 5
    · split
      · split
        · refine ⟨ps, h.bytes, h.fixups, h.map, h.counts, h.slots, ?_⟩
          show s.code.bytes.length + 5 ≤ _
          omega
        · exact hsame 5
      · have hplant : (input.options.enableTimerSafePoints && !input.options.enableLongModeEmission &&
            decide (tail.next ≤ tail.guestAddress)) = false := by
          rw [hmode]
          simp
        dsimp only
        rw [hplant, safePointIf, if_neg (by decide)]
        have hpend := h.pend s.pending hsize
        have hroom : InPieces input done (room + 5) { s with code := s.code.append {}, pending := s.pending } ps :=
          ⟨hpend.bytes, hpend.fixups, hpend.map, hpend.counts, hpend.slots,
            hpend.size.trans (Nat.le_add_right _ _)⟩
        refine ⟨_, hroom.jump tail.guestAddress tail.next s.pending ?_⟩
        have := hpend.size
        dsimp only at this ⊢
        omega
      · exact hsame 5
  · exact hsame 5

theorem InPieces.blocks (hmode : input.options.enableLongModeEmission = true)
    (h : InPieces input done room s ps) (hemitted : Emitted input done s) (blocks : List AotBasicBlock)
    (hblocks : RecordInvariant.All (Emittable input) blocks) :
    ∃ ps', InPieces input (done ++ (blocks.map AotBasicBlock.instructions).flatten)
      (room + 265 * (blocks.map AotBasicBlock.instructions).flatten.length) (blocks.foldl (emitBlock input) s)
      ps' := by
  induction blocks generalizing done room s ps with
  | nil => exact ⟨ps, by simpa using h⟩
  | cons b bs ih =>
    have hb := hblocks b List.mem_cons_self
    obtain ⟨ps₁, h₁⟩ := h.emitRecords hmode hemitted b.instructions hb
    obtain ⟨ps₂, h₂⟩ := h₁.closeBlock hmode b
    obtain ⟨ps₃, h₃⟩ := ih h₂ ((hemitted.emitRecords b.instructions hb).closeBlock b)
      fun x hx => hblocks x (List.mem_cons_of_mem b hx)
    rw [List.append_assoc] at h₃
    refine ⟨ps₃, h₃.bytes, h₃.fixups, h₃.map, h₃.counts, h₃.slots, h₃.size.trans ?_⟩
    rw [List.map_cons, List.flatten_cons, List.length_append]
    have hclose : (if b.instructions = [] then 0 else 5) ≤ 5 * b.instructions.length := by
      split_ifs with hnil
      · exact Nat.zero_le _
      · have := List.length_pos_iff.mpr hnil
        omega
    omega

/-- The whole emission, in at most 265 bytes for each record. -/
theorem inPieces_emitBlocks (hmode : input.options.enableLongModeEmission = true) {blocks : List AotBasicBlock}
    (hblocks : RecordInvariant.All (Emittable input) blocks) :
    ∃ ps, InPieces input (blocks.map AotBasicBlock.instructions).flatten
      (265 * (blocks.map AotBasicBlock.instructions).flatten.length) (emitBlocks input blocks) ps := by
  have hstart : InPieces input [] 0 {} [] := by
    refine ⟨rfl, rfl, rfl, rfl, ?_, le_rfl⟩
    intro p hp
    cases hp
  have hstart' : Emitted input [] {} :=
    ⟨EmitSpec.empty, fun _ => rfl, by simp, by simp, List.Pairwise.nil⟩
  obtain ⟨ps, h⟩ := hstart.blocks hmode hstart' blocks hblocks
  rw [List.nil_append, Nat.zero_add] at h
  have hsize := h.size
  unfold emitBlocks
  dsimp only
  split
  · rename_i source target hpending
    rw [hpending] at hsize
    exact ⟨_, h.jump source target none hsize⟩
  · exact ⟨ps, h⟩

end

end Repiu.Runtime
