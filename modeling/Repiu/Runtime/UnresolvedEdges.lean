import Repiu.Runtime.EdgeResolution

/-!
# Edges that leave a long-mode image

An edge without a target is neutralised in place.  A branch slot becomes traps, each an
instruction; a jump on inside a slot becomes a trap and four bytes that verification counts.
-/

namespace Repiu.Runtime

open Repiu.X86

/-! ## Instructions of 64-bit code -/

/-- The bytes are one instruction, whatever follows them. -/
def IsInstruction (table : Table) (bytes : List Byte) : Prop :=
  ∀ tail, ∃ i, decode table .long64 (bytes ++ tail) = some i ∧ i.length = bytes.length

/-- The bytes are so many instructions. -/
inductive AreInstructions (table : Table) : List Byte → ℕ → Prop
  | nil : AreInstructions table [] 0
  | cons {first rest : List Byte} {n : ℕ} (hfirst : IsInstruction table first)
      (hrest : AreInstructions table rest n) : AreInstructions table (first ++ rest) (n + 1)

/-- What verification decodes of an entry's bytes. -/
def decodeAll (table : Table) (bytes : List Byte) : ℕ × ℕ := decodeRun table .long64 bytes.length bytes

section
variable {table : Table}

/-- The number of bytes is fuel enough. -/
theorem decodeRun_fuel (mode : MachineMode) {fuel : ℕ} {bytes : List Byte} (h : bytes.length ≤ fuel) :
    decodeRun table mode fuel bytes = decodeRun table mode bytes.length bytes := by
  induction fuel using Nat.strong_induction_on generalizing bytes with
  | _ fuel ih =>
    cases fuel with
    | zero => rw [List.eq_nil_of_length_eq_zero (Nat.le_zero.mp h)]; rfl
    | succ fuel =>
      cases bytes with
      | nil => rfl
      | cons b bs =>
        rw [List.length_cons] at h ⊢
        rw [decodeRun, decodeRun, if_neg (List.cons_ne_nil b bs), if_neg (List.cons_ne_nil b bs)]
        cases decode table mode (b :: bs) with
        | none => rfl
        | some i =>
          have hpos := i.length_pos
          have hdrop : ((b :: bs).drop i.length).length ≤ bs.length := by
            rw [List.length_drop, List.length_cons]
            omega
          dsimp only
          rw [ih fuel (Nat.lt_succ_self _) (hdrop.trans (Nat.le_of_succ_le_succ h)),
            ih bs.length (by omega) hdrop]

theorem decodeAll_cons {first : List Byte} (h : IsInstruction table first) (rest : List Byte) :
    decodeAll table (first ++ rest) = (first.length + (decodeAll table rest).1, (decodeAll table rest).2 + 1) := by
  obtain ⟨i, hdecode, hlength⟩ := h rest
  have hpos := i.length_pos
  obtain ⟨n, hn⟩ : ∃ n, (first ++ rest).length = n + 1 := by
    rw [List.length_append]
    exact ⟨first.length - 1 + rest.length, by omega⟩
  have hne : first ++ rest ≠ [] := by
    intro hnil
    rw [hnil] at hn
    cases hn
  have hfuel : rest.length ≤ n := by
    rw [List.length_append] at hn
    omega
  rw [decodeAll, hn, decodeRun, if_neg hne, hdecode]
  dsimp only
  rw [hlength, List.drop_left, decodeRun_fuel .long64 hfuel]
  rfl

theorem AreInstructions.decodeAll_append {bytes : List Byte} {n : ℕ} (h : AreInstructions table bytes n)
    (rest : List Byte) :
    decodeAll table (bytes ++ rest) =
      (bytes.length + (decodeAll table rest).1, n + (decodeAll table rest).2) := by
  induction h with
  | nil => simp
  | cons hfirst _ ih =>
    rw [List.append_assoc, decodeAll_cons hfirst, ih, List.length_append]
    simp only [Prod.mk.injEq]
    omega

theorem AreInstructions.decodeAll {bytes : List Byte} {n : ℕ} (h : AreInstructions table bytes n) :
    decodeAll table bytes = (bytes.length, n) := by
  have := h.decodeAll_append []
  rwa [List.append_nil] at this

theorem IsInstruction.one {bytes : List Byte} (h : IsInstruction table bytes) :
    AreInstructions table bytes 1 := by
  rw [← List.append_nil bytes]
  exact AreInstructions.cons h AreInstructions.nil

theorem AreInstructions.append {a b : List Byte} {m n : ℕ} (ha : AreInstructions table a m)
    (hb : AreInstructions table b n) : AreInstructions table (a ++ b) (m + n) := by
  induction ha with
  | nil => rwa [List.nil_append, Nat.zero_add]
  | cons hfirst _ ih =>
    rw [List.append_assoc, Nat.add_right_comm]
    exact AreInstructions.cons hfirst ih

theorem AreInstructions.replicate {b : Byte} (h : IsInstruction table [b]) (n : ℕ) :
    AreInstructions table (List.replicate n b) n := by
  induction n with
  | zero => exact AreInstructions.nil
  | succ n ih => exact AreInstructions.cons h ih

end

/-- What the decoder says of the jumps, of the trap, and of a zero byte in front of another. -/
structure JumpRows (table : Table) : Prop where
  jump : ∀ d, IsInstruction table (0xE9 :: le32 d)
  conditional : ∀ c ∈ conditionOpcodes, ∀ d, IsInstruction table (0x0F :: c :: le32 d)
  trap : IsInstruction table [0xCC]
  add : IsInstruction table [0x00, 0x00]

/-- The bytes of a slot are the instructions its emitter counts, in front of the edge and behind it. -/
structure CountedSlot (table : Table) (slot : LongModeSlot) : Prop where
  plain : (∀ x ∈ slot.code.fixups, isDirectEdgeFixup x.kind = false) →
    AreInstructions table slot.code.bytes slot.instructionCount
  edge : ∀ e : SlotEdge, e.In slot.code → ∃ m n, AreInstructions table e.head m ∧
    AreInstructions table e.tail n ∧ m + 1 + n = slot.instructionCount

section
variable {table : Table} {slot : LongModeSlot} {e : SlotEdge}

/-- An edge with any displacement is one instruction. -/
theorem JumpRows.edge (hrows : JumpRows table) (h : e.In slot.code) (d : Word) :
    IsInstruction table (e.opcode ++ le32 d) := by
  rcases h.opcode with hopcode | ⟨-, c, hc, hopcode⟩
  · rw [hopcode]
    exact hrows.jump d
  · rw [hopcode]
    exact hrows.conditional c hc d

/-- A slot with its edge filled in. -/
theorem CountedSlot.filled (hslot : CountedSlot table slot) (hrows : JumpRows table) (h : e.In slot.code)
    (d : Word) : AreInstructions table (e.bytes d) slot.instructionCount := by
  obtain ⟨m, n, hhead, htail, hcount⟩ := hslot.edge e h
  rw [← hcount, SlotEdge.bytes, List.append_assoc e.head]
  exact (hhead.append (hrows.edge h d).one).append htail

/-- A slot with a trap in place of its jump on has two instructions more. -/
theorem CountedSlot.trapped (hslot : CountedSlot table slot) (hrows : JumpRows table) (h : e.In slot.code) :
    AreInstructions table (e.head ++ [0xCC] ++ le32 0 ++ e.tail) (slot.instructionCount + 2) := by
  obtain ⟨m, n, hhead, htail, hcount⟩ := hslot.edge e h
  have hzeros : AreInstructions table (le32 0) 2 := hrows.add.one.append hrows.add.one
  have := ((hhead.append hrows.trap.one).append hzeros).append htail
  rwa [show m + 1 + 2 + n = slot.instructionCount + 2 by omega] at this

end

/-! ## Pieces at their offsets -/

/-- Something of each piece of a run at its offset. -/
def AtEach (P : ℕ → Piece → Prop) (base : ℕ) (ps : List Piece) : Prop :=
  ∀ qs p rs, ps = qs ++ p :: rs → P (base + (piecesBytes qs).length) p

theorem atEach_nil (P : ℕ → Piece → Prop) (base : ℕ) : AtEach P base [] := by
  intro qs p rs h
  cases qs <;> cases h

theorem atEach_cons {P : ℕ → Piece → Prop} {base : ℕ} {p : Piece} {ps : List Piece} :
    AtEach P base (p :: ps) ↔ P base p ∧ AtEach P (base + p.code.bytes.length) ps := by
  constructor
  · intro h
    refine ⟨h [] p ps rfl, ?_⟩
    intro qs q rs hsplit
    have := h (p :: qs) q rs (congrArg (p :: ·) hsplit)
    rwa [piecesBytes, List.length_append, ← Nat.add_assoc] at this
  · rintro ⟨hp, hps⟩ qs q rs hsplit
    cases qs with
    | nil =>
      cases hsplit
      exact hp
    | cons q' qs =>
      cases hsplit
      rw [piecesBytes, List.length_append, ← Nat.add_assoc]
      exact hps qs q rs rfl

section
variable (map : List AotAddressMapEntry)

theorem resolvedBytes_length (base : ℕ) (ps : List Piece) :
    (resolvedBytes map base ps).length = (piecesBytes ps).length := by
  induction ps generalizing base with
  | nil => rfl
  | cons p ps ih =>
    rw [resolvedBytes, piecesBytes, List.length_append, List.length_append, ih, (p.resolved_length map base).1]

theorem resolvedBytes_append (base : ℕ) (ps qs : List Piece) :
    resolvedBytes map base (ps ++ qs) =
      resolvedBytes map base ps ++ resolvedBytes map (base + (piecesBytes ps).length) qs := by
  induction ps generalizing base with
  | nil => rfl
  | cons p ps ih =>
    rw [List.cons_append, resolvedBytes, resolvedBytes, piecesBytes, ih, List.append_assoc, List.length_append,
      Nat.add_assoc]

/-- The bytes of a piece where it stands. -/
theorem resolvedBytes_piece {qs rs : List Piece} {p : Piece} :
    ∃ front back, resolvedBytes map 0 (qs ++ p :: rs) =
      front ++ (p.resolved map (piecesBytes qs).length).1 ++ back ∧ front.length = (piecesBytes qs).length := by
  refine ⟨resolvedBytes map 0 qs, resolvedBytes map ((piecesBytes qs).length + p.code.bytes.length) rs, ?_,
    resolvedBytes_length map 0 qs⟩
  rw [resolvedBytes_append, resolvedBytes, Nat.zero_add, List.append_assoc]

end

/-! ## Verification -/

/-- The bytes of a slot decode as its count says. -/
def PieceVerified (input : BuildInput) (map : List AotAddressMapEntry) (base : ℕ) (p : Piece) : Prop :=
  ∀ r n, p.entry = some (r, n) → ∃ count, (p.resolved map base).2 = [count] ∧
    decodeAll input.table (p.resolved map base).1 = (p.code.bytes.length, count)

section
variable {input : BuildInput} {map : List AotAddressMapEntry}

theorem entryVerified_at (hmode : input.options.enableLongModeEmission = true) (front back : List Byte)
    {bytes : List Byte} {address : Word} {length count : ℕ} :
    entryVerified input (front ++ bytes ++ back) ⟨address, front.length, length, bytes.length⟩ count = true ↔
      decodeAll input.table bytes = (bytes.length, count) := by
  rw [entryVerified, hmode]
  dsimp only
  rw [List.append_assoc, List.drop_left, List.take_left]
  show decide ((decodeAll input.table bytes).1 = bytes.length ∧
    (true = true → (decodeAll input.table bytes).2 = count)) = true ↔ _
  rw [decide_eq_true_eq, imp_iff_right rfl, Prod.ext_iff]

/-- Verification is a check on each slot. -/
theorem entriesVerified_pieces (hmode : input.options.enableLongModeEmission = true) (ps : List Piece)
    (front : List Byte) :
    entriesVerified input (front ++ resolvedBytes map front.length ps) (piecesMap front.length ps)
        (resolvedCounts map front.length ps) = true ↔
      AtEach (PieceVerified input map) front.length ps := by
  induction ps generalizing front with
  | nil => exact iff_of_true rfl (atEach_nil _ _)
  | cons p ps ih =>
    obtain ⟨hlength, hlength'⟩ := p.resolved_length map front.length
    have hfront : front.length + p.code.bytes.length = (front ++ (p.resolved map front.length).1).length := by
      rw [List.length_append, hlength]
    have hrest := ih (front ++ (p.resolved map front.length).1)
    rw [← hfront, List.append_assoc] at hrest
    rw [atEach_cons, resolvedBytes, piecesMap, resolvedCounts]
    cases hentry : p.entry with
    | none =>
      have hcounts : (p.resolved map front.length).2 = [] := by
        rw [← List.length_eq_zero_iff, hlength', Piece.counts, hentry]
        rfl
      have hverified : PieceVerified input map front.length p := by
        intro r n h
        rw [hentry] at h
        cases h
      rw [Piece.mapEntry, hentry, hcounts, and_iff_right hverified]
      exact hrest
    | some entry =>
      obtain ⟨r, n⟩ := entry
      obtain ⟨count, hcount⟩ : ∃ count, (p.resolved map front.length).2 = [count] := by
        rw [← List.length_eq_one_iff, hlength', Piece.counts, hentry]
        rfl
      have hverified : PieceVerified input map front.length p ↔
          decodeAll input.table (p.resolved map front.length).1 = (p.code.bytes.length, count) := by
        constructor
        · intro h
          obtain ⟨count', hcount', hdecode⟩ := h r n hentry
          rw [hcount] at hcount'
          cases hcount'
          exact hdecode
        · exact fun h _ _ _ => ⟨count, hcount, h⟩
      rw [Piece.mapEntry, hentry, hcount, hverified]
      show (entryVerified input (front ++ ((p.resolved map front.length).1 ++
          resolvedBytes map (front.length + p.code.bytes.length) ps))
            ⟨r.guestAddress, front.length, r.length, p.code.bytes.length⟩ count &&
        entriesVerified input (front ++ ((p.resolved map front.length).1 ++
          resolvedBytes map (front.length + p.code.bytes.length) ps))
          (piecesMap (front.length + p.code.bytes.length) ps)
          (resolvedCounts map (front.length + p.code.bytes.length) ps)) = true ↔ _
      rw [Bool.and_eq_true, hrest]
      apply and_congr_left'
      rw [← List.append_assoc, ← hlength]
      exact entryVerified_at hmode _ _

/-- The slot of a piece passes, unless its jump on has no displacement. -/
theorem pieceVerified_iff (hrows : JumpRows input.table) {p : Piece} {slot : LongModeSlot}
    (hslot : CountedSlot input.table slot) {r : AotInstructionRecord} (hcode : p.code = slot.code)
    (hentry : p.entry = some (r, slot.instructionCount)) (base : ℕ) :
    PieceVerified input map base p ↔
      ∀ e, p.edge = some e → e.fixup.kind = .kBlockFallthrough → e.displacement map base ≠ none := by
  have hcounts : p.counts = [slot.instructionCount] := by
    rw [Piece.counts, hentry]
    rfl
  obtain ⟨hlength, -⟩ := p.resolved_length map base
  -- bytes that are the instructions counted pass
  have hpass : ∀ count, (p.resolved map base).2 = [count] →
      AreInstructions input.table (p.resolved map base).1 count → PieceVerified input map base p := by
    intro count hcount hbytes _ _ _
    refine ⟨count, hcount, ?_⟩
    rw [hbytes.decodeAll, hlength]
  cases hedge : p.edge with
  | none =>
    have hresolved : p.resolved map base = (p.code.bytes, p.counts) := by
      rw [Piece.resolved, hedge]
    refine iff_of_true (hpass slot.instructionCount (by rw [hresolved, hcounts]) ?_) ?_
    · rw [hresolved, hcode]
      apply hslot.plain
      rw [← hcode]
      exact p.plain hedge
    · intro e he
      cases he
  | some e =>
    have hin : e.In slot.code := hcode ▸ p.edge_in e hedge
    cases hdisplacement : e.displacement map base with
    | some d =>
      have hresolved : p.resolved map base = (e.bytes d, p.counts) := by
        rw [Piece.resolved, hedge]
        dsimp only
        rw [hdisplacement]
      refine iff_of_true (hpass slot.instructionCount (by rw [hresolved, hcounts]) ?_) ?_
      · rw [hresolved]
        exact hslot.filled hrows hin d
      · intro e' he' _
        rw [← Option.some.inj he', hdisplacement]
        exact Option.some_ne_none d
    | none =>
      by_cases hkind : e.fixup.kind = .kBlockFallthrough
      · have hresolved : p.resolved map base = (e.head ++ [0xCC] ++ le32 0 ++ e.tail, p.counts) := by
          rw [Piece.resolved, hedge]
          dsimp only
          rw [hdisplacement]
          exact if_pos hkind
        apply iff_of_false
        · intro h
          obtain ⟨count, hcount, hdecode⟩ := h r _ hentry
          rw [hresolved] at hcount hdecode
          rw [(hslot.trapped hrows hin).decodeAll, Prod.mk.injEq] at hdecode
          rw [hcounts, List.cons.injEq] at hcount
          omega
        · exact fun h => h e rfl hkind hdisplacement
      · have hresolved : p.resolved map base =
            (List.replicate p.code.bytes.length 0xCC, [p.code.bytes.length]) := by
          rw [Piece.resolved, hedge]
          dsimp only
          rw [hdisplacement]
          dsimp only
          rw [if_neg hkind, hcounts]
          rfl
        refine iff_of_true (hpass p.code.bytes.length (by rw [hresolved]) ?_) ?_
        · rw [hresolved]
          exact AreInstructions.replicate hrows.trap _
        · intro e' he' hkind'
          rw [← Option.some.inj he'] at hkind'
          exact absurd hkind' hkind

end

/-! ## Where an edge goes -/

/-- What stands in the address map stands there for a piece. -/
theorem mem_piecesMap {entry : AotAddressMapEntry} {base : ℕ} {ps : List Piece} (h : entry ∈ piecesMap base ps) :
    ∃ qs p rs, ps = qs ++ p :: rs ∧ entry ∈ p.mapEntry (base + (piecesBytes qs).length) := by
  induction ps generalizing base with
  | nil => cases h
  | cons p ps ih =>
    rw [piecesMap, List.mem_append] at h
    rcases h with h | h
    · exact ⟨[], p, ps, rfl, h⟩
    · obtain ⟨qs, q, rs, hsplit, hq⟩ := ih h
      refine ⟨p :: qs, q, rs, congrArg (p :: ·) hsplit, ?_⟩
      rwa [piecesBytes, List.length_append, ← Nat.add_assoc]

/-- A fixup of the code is one of a piece. -/
theorem mem_piecesFixups {x : AotCodeCacheFixup} {base : ℕ} {ps : List Piece} (h : x ∈ piecesFixups base ps) :
    ∃ qs p rs, ps = qs ++ p :: rs ∧ ∃ y ∈ p.code.fixups, x = y.move (base + (piecesBytes qs).length) := by
  induction ps generalizing base with
  | nil => cases h
  | cons p ps ih =>
    rw [piecesFixups, List.mem_append] at h
    rcases h with h | h
    · obtain ⟨y, hy, hxy⟩ := List.mem_map.mp h
      exact ⟨[], p, ps, rfl, y, hy, hxy.symm⟩
    · obtain ⟨qs, q, rs, hsplit, hq⟩ := ih h
      refine ⟨p :: qs, q, rs, congrArg (p :: ·) hsplit, ?_⟩
      rwa [piecesBytes, List.length_append, ← Nat.add_assoc]

/-- The address-map entry of a piece where it stands. -/
theorem mapEntry_mem {ps qs rs : List Piece} {p : Piece} (hsplit : ps = qs ++ p :: rs)
    {r : AotInstructionRecord} {n : ℕ} (hentry : p.entry = some (r, n)) :
    (⟨r.guestAddress, (piecesBytes qs).length, r.length, p.code.bytes.length⟩ : AotAddressMapEntry) ∈
      piecesMap 0 ps := by
  rw [hsplit, piecesMap_append, List.mem_append, piecesMap, List.mem_append, Piece.mapEntry, hentry, Nat.zero_add]
  exact Or.inr (Or.inl (List.mem_singleton_self _))

/-- With one entry for each address, a search finds the entry. -/
theorem findEntry_of_mem {map : List AotAddressMapEntry} {entry : AotAddressMapEntry}
    (hdistinct : map.Pairwise fun e e' => e.guestAddress ≠ e'.guestAddress) (h : entry ∈ map) :
    findEntry map entry.guestAddress = some entry := by
  induction map with
  | nil => cases h
  | cons e es ih =>
    obtain ⟨hfirst, hrest⟩ := List.pairwise_cons.mp hdistinct
    rcases List.mem_cons.mp h with h | h
    · rw [h, findEntry, List.find?_cons_of_pos]
      exact decide_eq_true rfl
    · rw [findEntry, List.find?_cons_of_neg]
      · exact ih hrest h
      · exact fun heq => hfirst entry h (of_decide_eq_true heq)

/-- In code that 32 bits can cross, only an edge to an address that is not mapped has no
displacement. -/
theorem displacement_ne_none_iff {map : List AotAddressMapEntry} {p : Piece} {e : SlotEdge} (hedge : p.edge = some e)
    {base total : ℕ} (hpiece : base + p.code.bytes.length ≤ total) (htotal : total < 2 ^ 31)
    (hmap : ∀ entry ∈ map, entry.cacheOffset ≤ total) :
    e.displacement map base ≠ none ↔ (findEntry map e.fixup.guestTarget).isSome := by
  unfold SlotEdge.displacement
  cases hfind : findEntry map e.fixup.guestTarget with
  | none => exact iff_of_false (fun h => h rfl) (fun h => by cases h)
  | some entry =>
    have hentry := hmap entry (List.mem_of_find?_eq_some hfind)
    have hlength := e.bytes_length 0
    rw [← (p.edge_in e hedge).bytes] at hlength
    have hpatch := (p.edge_in e hedge).patch
    refine iff_of_true ?_ rfl
    rw [Option.bind_some]
    dsimp only
    rw [if_neg]
    · exact Option.some_ne_none _
    · omega

/-! ## Fixups behind resolution -/

/-- A fixup that resolution has visited. -/
def Visited (xs : List AotCodeCacheFixup) (y : AotCodeCacheFixup) : Prop :=
  ∃ x ∈ xs, y = x ∨ y = { x with resolved := true }

theorem resolveFixup_fixups {input : BuildInput} (hmode : input.options.enableLongModeEmission = true)
    {map : List AotAddressMapEntry} {s s' : ResolveState} {x : AotCodeCacheFixup}
    (h : resolveFixup input map s x = some s') :
    s'.code.fixups = s.code.fixups ++ [x] ∨ s'.code.fixups = s.code.fixups ++ [{ x with resolved := true }] := by
  unfold resolveFixup at h
  split_ifs at h
  · rw [← Option.some.inj h]
    exact Or.inl rfl
  · split at h
    · rw [← Option.some.inj h]
      exact Or.inr rfl
    · unfold resolveUnmapped at h
      split at h
      · rw [← Option.some.inj h]
        exact Or.inl rfl
      · obtain ⟨p, -, hs'⟩ := Option.map_eq_some_iff.mp h
        rw [← hs']
        exact Or.inl rfl

/-- Resolution of long-mode code adds no fixup. -/
theorem resolveFixups_visited {input : BuildInput} (hmode : input.options.enableLongModeEmission = true)
    {map : List AotAddressMapEntry} {xs : List AotCodeCacheFixup} {s r : ResolveState}
    (h : resolveFixups input map xs s = some r) : ∀ y ∈ r.code.fixups, y ∈ s.code.fixups ∨ Visited xs y := by
  induction xs generalizing s with
  | nil =>
    intro y hy
    rw [← Option.some.inj h] at hy
    exact Or.inl hy
  | cons x xs ih =>
    intro y hy
    rw [resolveFixups] at h
    cases hstep : resolveFixup input map s x with
    | none =>
      rw [hstep] at h
      cases h
    | some s' =>
      rw [hstep] at h
      have hstep' := resolveFixup_fixups hmode hstep
      rcases ih h y hy with hy' | ⟨z, hz, hyz⟩
      · have hnew : y ∈ s.code.fixups ∨ y = x ∨ y = { x with resolved := true } := by
          rcases hstep' with heq | heq
          · rw [heq, List.mem_append, List.mem_singleton] at hy'
            exact hy'.imp_right Or.inl
          · rw [heq, List.mem_append, List.mem_singleton] at hy'
            exact hy'.imp_right Or.inr
        exact hnew.imp_right fun hx => ⟨x, List.mem_cons_self, hx⟩
      · exact Or.inr ⟨z, List.mem_cons_of_mem x hz, hyz⟩

end Repiu.Runtime
