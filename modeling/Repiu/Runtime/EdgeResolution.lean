import Repiu.Runtime.CodePieces
import Repiu.Runtime.Resolution

/-!
# Resolution in pieces

For the 64-bit back end resolution never fails: it fills in the edge of each piece, or puts traps
in its place.
-/

namespace Repiu.Runtime

open Repiu.X86

/-! ## A resolved piece -/

/-- The displacement resolution gives an edge of code at an offset. -/
def SlotEdge.displacement (map : List AotAddressMapEntry) (base : ℕ) (e : SlotEdge) : Option Word :=
  (findEntry map e.fixup.guestTarget).bind fun entry =>
    let patch := base + e.fixup.cachePatchOffset
    let displacement : ℤ := (entry.cacheOffset : ℤ) - ((patch : ℤ) + 4)
    if displacement < -2 ^ 31 ∨ 2 ^ 31 ≤ displacement then none else some (rel32 patch entry.cacheOffset)

/-- The bytes of a piece and its instruction count behind resolution. -/
def Piece.resolved (map : List AotAddressMapEntry) (base : ℕ) (p : Piece) : List Byte × List ℕ :=
  match p.edge with
  | none => (p.code.bytes, p.counts)
  | some e =>
    match e.displacement map base with
    | some d => (e.bytes d, p.counts)
    | none =>
      if e.fixup.kind = .kBlockFallthrough then (e.head ++ [0xCC] ++ le32 0 ++ e.tail, p.counts)
      else (List.replicate p.code.bytes.length 0xCC, p.counts.map fun _ => p.code.bytes.length)

/-- Only a conditional branch has two opcode bytes. -/
theorem SlotEdge.In.opcode_jumpsOn {e : SlotEdge} {code : Fragment} (h : e.In code)
    (hkind : e.fixup.kind = .kBlockFallthrough) : e.opcode = [0xE9] := by
  rcases h.opcode with hopcode | ⟨hbranch, -⟩
  · exact hopcode
  · rw [hkind] at hbranch
    cases hbranch

theorem SlotEdge.bytes_length (e : SlotEdge) (d : Word) :
    (e.bytes d).length = e.head.length + e.opcode.length + 4 + e.tail.length := by
  simp only [SlotEdge.bytes, List.length_append, le32_length]

/-- Resolution changes no length. -/
theorem Piece.resolved_length (map : List AotAddressMapEntry) (base : ℕ) (p : Piece) :
    (p.resolved map base).1.length = p.code.bytes.length ∧
      (p.resolved map base).2.length = p.counts.length := by
  unfold Piece.resolved
  cases hedge : p.edge with
  | none => exact ⟨rfl, rfl⟩
  | some e =>
    have hin := p.edge_in e hedge
    dsimp only
    cases e.displacement map base with
    | some d =>
      refine ⟨?_, rfl⟩
      show (e.bytes d).length = _
      rw [hin.bytes, SlotEdge.bytes_length, SlotEdge.bytes_length]
    | none =>
      dsimp only
      by_cases hkind : e.fixup.kind = .kBlockFallthrough
      · rw [if_pos hkind]
        refine ⟨?_, rfl⟩
        rw [hin.bytes, SlotEdge.bytes_length, hin.opcode_jumpsOn hkind]
        simp only [List.length_append, le32_length, List.length_singleton]
      · rw [if_neg hkind]
        exact ⟨List.length_replicate, List.length_map _⟩

/-! ## Writing -/

theorem overwrite_middle (a c : List Byte) {b b' : List Byte} (h : b.length = b'.length) :
    overwrite (a ++ b ++ c) a.length b' = a ++ b' ++ c := by
  have hlength : (a ++ b).length = a.length + b'.length := by rw [List.length_append, h]
  rw [overwrite, List.append_assoc a b c, List.take_left, ← List.append_assoc a b c, ← hlength,
    List.drop_left]

theorem getElem?_middle (a c : List Byte) (b : Byte) : (a ++ b :: c)[a.length]? = some b := by
  rw [List.getElem?_append_right le_rfl, Nat.sub_self]
  rfl

/-- The entry of a branch is filled with traps. -/
theorem neutraliseEntry_at {bytes : List Byte} {fixup : AotCodeCacheFixup} {before after : List AotAddressMapEntry}
    {entry : AotAddressMapEntry} {counts : List ℕ} (count : ℕ) (rest : List ℕ)
    (hlength : before.length = counts.length) (hbefore : ∀ e ∈ before, e.guestAddress ≠ fixup.guestSource)
    (hentry : entry.guestAddress = fixup.guestSource)
    (hlow : entry.cacheOffset ≤ fixup.cachePatchOffset)
    (hhigh : fixup.cachePatchOffset + 4 ≤ entry.cacheOffset + entry.emittedLength)
    (hbytes : entry.cacheOffset + entry.emittedLength ≤ bytes.length) :
    neutraliseEntry bytes fixup (before ++ entry :: after) (counts ++ count :: rest) =
      some (overwrite bytes entry.cacheOffset (List.replicate entry.emittedLength 0xCC),
        counts ++ entry.emittedLength :: rest) := by
  induction before generalizing counts with
  | nil =>
    rw [List.length_nil] at hlength
    rw [List.eq_nil_of_length_eq_zero hlength.symm, List.nil_append, List.nil_append, List.nil_append,
      neutraliseEntry, if_neg (not_not_intro hentry), if_neg]
    omega
  | cons e es ih =>
    cases counts with
    | nil => cases hlength
    | cons n ns =>
      rw [List.cons_append, List.cons_append, neutraliseEntry, if_pos (hbefore e List.mem_cons_self),
        ih (Nat.succ.inj hlength) fun e he => hbefore e (List.mem_cons_of_mem _ he)]
      rfl

/-! ## Runs of fixups -/

section
variable {input : BuildInput} {map : List AotAddressMapEntry}

theorem resolveFixups_append (xs ys : List AotCodeCacheFixup) (s : ResolveState) :
    resolveFixups input map (xs ++ ys) s = (resolveFixups input map xs s).bind (resolveFixups input map ys) := by
  induction xs generalizing s with
  | nil => rfl
  | cons x xs ih =>
    rw [List.cons_append, resolveFixups, resolveFixups]
    cases resolveFixup input map s x with
    | none => rfl
    | some s' => exact ih s'

/-- What a run of fixups leaves: bytes and instruction counts. -/
def Resolves (input : BuildInput) (map : List AotAddressMapEntry) (fixups : List AotCodeCacheFixup)
    (s : ResolveState) (bytes : List Byte) (counts : List ℕ) : Prop :=
  ∃ s', resolveFixups input map fixups s = some s' ∧ s'.code.bytes = bytes ∧ s'.entryInstructions = counts

theorem Resolves.append {xs ys : List AotCodeCacheFixup} {s : ResolveState} {bytes bytes' : List Byte}
    {counts counts' : List ℕ} (h : Resolves input map xs s bytes counts)
    (h' : ∀ s' : ResolveState, s'.code.bytes = bytes → s'.entryInstructions = counts →
      Resolves input map ys s' bytes' counts') : Resolves input map (xs ++ ys) s bytes' counts' := by
  obtain ⟨s', hrun, hbytes, hcounts⟩ := h
  obtain ⟨s'', hrun', hbytes', hcounts'⟩ := h' s' hbytes hcounts
  refine ⟨s'', ?_, hbytes', hcounts'⟩
  rw [resolveFixups_append, hrun]
  exact hrun'

/-- Boundaries are left to the dispatcher. -/
theorem resolves_plain {fixups : List AotCodeCacheFixup}
    (h : ∀ x ∈ fixups, isDirectEdgeFixup x.kind = false) (s : ResolveState) :
    Resolves input map fixups s s.code.bytes s.entryInstructions := by
  induction fixups generalizing s with
  | nil => exact ⟨s, rfl, rfl, rfl⟩
  | cons x xs ih =>
    have hexternal : isExternalFixup s.code.bytes x = true := by
      have hx := h x List.mem_cons_self
      unfold isExternalFixup
      cases hkind : x.kind with
      | kHleBoundary => simp
      | kIndirectExit => simp
      | _ =>
        rw [hkind] at hx
        cases hx
    obtain ⟨s', hrun, hrest⟩ := ih (fun y hy => h y (List.mem_cons_of_mem x hy)) (s.push x)
    refine ⟨s', ?_, hrest⟩
    rw [resolveFixups, resolveFixup, if_pos hexternal]
    exact hrun

/-! ## The edge of a piece -/

variable {p : Piece} {e : SlotEdge} {front back : List Byte}

theorem SlotEdge.In.direct {code : Fragment} (h : e.In code) : isDirectEdgeFixup e.fixup.kind = true := by
  have hmem : e.fixup ∈ code.fixups.filter fun x => isDirectEdgeFixup x.kind := by
    rw [h.fixups]
    exact List.mem_singleton_self _
  exact (List.mem_filter.mp hmem).2

/-- A direct edge without a displacement is no external fixup. -/
theorem isExternalFixup_edge {code : Fragment} (h : e.In code) :
    isExternalFixup (front ++ code.bytes ++ back) (e.fixup.move front.length) = false := by
  have hsplit : front ++ code.bytes ++ back =
      (front ++ e.head ++ e.opcode) ++ 0 :: ([0, 0, 0] ++ e.tail ++ back) := by
    rw [h.bytes, SlotEdge.bytes, show le32 0 = 0 :: [0, 0, 0] from rfl]
    simp only [List.append_assoc, List.cons_append]
  have hoffset : front.length + e.fixup.cachePatchOffset = (front ++ e.head ++ e.opcode).length := by
    rw [h.patch, List.length_append, List.length_append, Nat.add_assoc]
  have hbyte : (front ++ code.bytes ++ back).getD (front.length + e.fixup.cachePatchOffset) 0 = 0 := by
    rw [hsplit, hoffset, List.getD_eq_getElem?_getD, getElem?_middle]
    rfl
  have hdirect := h.direct
  simp only [isExternalFixup, AotCodeCacheFixup.move, hbyte]
  cases hkind : e.fixup.kind with
  | kHleBoundary =>
    rw [hkind] at hdirect
    cases hdirect
  | kIndirectExit =>
    rw [hkind] at hdirect
    cases hdirect
  | _ => decide

/-- Filling in the displacement of an edge. -/
theorem patch_edge (map : List AotAddressMapEntry) {code : Fragment} (h : e.In code) :
    ((findEntry map e.fixup.guestTarget).bind fun entry => patchRel32 (front ++ code.bytes ++ back)
      (front.length + e.fixup.cachePatchOffset) entry.cacheOffset) =
      (e.displacement map front.length).map fun d => front ++ e.bytes d ++ back := by
  have hbytes (d : Word) : front ++ e.bytes d ++ back =
      (front ++ e.head ++ e.opcode) ++ le32 d ++ (e.tail ++ back) := by
    simp only [SlotEdge.bytes, List.append_assoc]
  have hoffset : front.length + e.fixup.cachePatchOffset = (front ++ e.head ++ e.opcode).length := by
    rw [h.patch, List.length_append, List.length_append, Nat.add_assoc]
  unfold SlotEdge.displacement
  cases findEntry map e.fixup.guestTarget with
  | none => rfl
  | some entry =>
    rw [Option.bind_some, Option.bind_some, patchRel32]
    dsimp only
    have hlength : ¬(front ++ code.bytes ++ back).length < front.length + e.fixup.cachePatchOffset + 4 := by
      rw [h.bytes, hbytes, hoffset]
      simp only [List.length_append, le32_length]
      omega
    by_cases hfar : (entry.cacheOffset : ℤ) - (((front.length + e.fixup.cachePatchOffset : ℕ) : ℤ) + 4) < -2 ^ 31 ∨
        2 ^ 31 ≤ (entry.cacheOffset : ℤ) - (((front.length + e.fixup.cachePatchOffset : ℕ) : ℤ) + 4)
    · rw [if_pos (Or.inr hfar), if_pos hfar]
      rfl
    · rw [if_neg (not_or_intro hlength hfar), if_neg hfar, Option.map_some, hbytes, h.bytes, hbytes, hoffset]
      exact congrArg some (overwrite_middle _ _ rfl)

variable {before after : List AotAddressMapEntry} {counts counts' : List ℕ} {s : ResolveState}
  (hmap : map = before ++ p.mapEntry front.length ++ after) (hbefore : before.length = counts.length)
  (hafter : after.length = counts'.length)
  (hfresh : ∀ r n, p.entry = some (r, n) → ∀ entry ∈ before, entry.guestAddress ≠ r.guestAddress)
include hmap hbefore hafter hfresh

/-- An edge that has no displacement is neutralised, with the entry of its piece. -/
theorem neutralise_edge (h : p.edge = some e)
    (hnone : e.displacement map front.length = none) :
    neutraliseLongModeBranch map (e.fixup.move front.length) (front ++ p.code.bytes ++ back)
        (counts ++ p.counts ++ counts') =
      some (front ++ (p.resolved map front.length).1 ++ back,
        counts ++ (p.resolved map front.length).2 ++ counts') := by
  have hin := p.edge_in e h
  rw [Piece.resolved, h]
  dsimp only
  rw [hnone]
  dsimp only
  by_cases hkind : e.fixup.kind = .kBlockFallthrough
  · have hopcode := hin.opcode_jumpsOn hkind
    have hpatch := hin.patch
    rw [hopcode, List.length_singleton] at hpatch
    have hsplit (b : Byte) : front ++ (e.head ++ [b] ++ le32 0 ++ e.tail) ++ back =
        (front ++ e.head) ++ [b] ++ (le32 0 ++ e.tail ++ back) := by
      simp only [List.append_assoc]
    have hbytes : front ++ p.code.bytes ++ back = (front ++ e.head) ++ [0xE9] ++ (le32 0 ++ e.tail ++ back) := by
      rw [hin.bytes, SlotEdge.bytes, hopcode, hsplit]
    have hoffset : (e.fixup.move front.length).cachePatchOffset - 1 = (front ++ e.head).length := by
      show front.length + e.fixup.cachePatchOffset - 1 = _
      rw [hpatch, List.length_append]
      omega
    have hkind' : (e.fixup.move front.length).kind = .kBlockFallthrough := hkind
    rw [if_pos hkind, neutraliseLongModeBranch, hkind', hsplit]
    dsimp only
    rw [if_neg, hbytes, hoffset, @overwrite_middle (front ++ e.head) _ [0xE9] [0xCC] rfl]
    rw [hbytes, hoffset, List.append_assoc, List.singleton_append, getElem?_middle, not_or, not_not]
    refine ⟨?_, rfl⟩
    show ¬front.length + e.fixup.cachePatchOffset < 1
    omega
  · rw [if_neg hkind]
    cases hentry : p.entry with
    | none => exact absurd (p.jumps_on hentry e h) hkind
    | some entry =>
      obtain ⟨r, n⟩ := entry
      have hsource := p.source r n hentry e h hkind
      have hcounts : p.counts = [n] := by
        rw [Piece.counts, hentry]
        rfl
      have hmapEntry : p.mapEntry front.length =
          [⟨r.guestAddress, front.length, r.length, p.code.bytes.length⟩] := by
        rw [Piece.mapEntry, hentry]
        rfl
      rw [hmapEntry, List.append_assoc, List.singleton_append] at hmap
      have hpatch := hin.patch
      have hlength := e.bytes_length 0
      rw [← hin.bytes] at hlength
      have hneutral : neutraliseEntry (front ++ p.code.bytes ++ back) (e.fixup.move front.length) map
          (counts ++ n :: counts') =
            some (front ++ List.replicate p.code.bytes.length 0xCC ++ back,
              counts ++ p.code.bytes.length :: counts') := by
        rw [hmap, ← overwrite_middle front back List.length_replicate.symm]
        apply neutraliseEntry_at n counts' hbefore
        · exact fun entry he heq => hfresh r n hentry entry he (heq.trans hsource)
        · exact hsource.symm
        · exact Nat.le_add_right _ _
        · show front.length + e.fixup.cachePatchOffset + 4 ≤ front.length + p.code.bytes.length
          omega
        · rw [List.length_append, List.length_append]
          exact Nat.le_add_right _ _
      have hlengths : ¬map.length ≠ (counts ++ p.counts ++ counts').length := by
        rw [not_not, hmap, hcounts, List.length_append, List.length_append, List.length_append, List.length_cons,
          List.length_singleton]
        omega
      have hbranch : neutraliseLongModeBranch map (e.fixup.move front.length) (front ++ p.code.bytes ++ back)
          (counts ++ p.counts ++ counts') =
          neutraliseEntry (front ++ p.code.bytes ++ back) (e.fixup.move front.length) map
            (counts ++ p.counts ++ counts') := by
        have hdirect := hin.direct
        have hmoved : (e.fixup.move front.length).kind = e.fixup.kind := rfl
        unfold neutraliseLongModeBranch
        rw [hmoved]
        cases hk : e.fixup.kind with
        | kBlockFallthrough => exact absurd hk hkind
        | kHleBoundary =>
          rw [hk] at hdirect
          cases hdirect
        | kIndirectExit =>
          rw [hk] at hdirect
          cases hdirect
        | _ => exact if_neg hlengths
      rw [hbranch, hcounts, List.append_assoc counts, List.singleton_append, hneutral, List.map_singleton,
        List.append_assoc counts, List.singleton_append]

variable (hmode : input.options.enableLongModeEmission = true)
  (hbytes : s.code.bytes = front ++ p.code.bytes ++ back) (hcounts : s.entryInstructions = counts ++ p.counts ++ counts')
include hmode hbytes hcounts

/-- The edge of a piece is filled in or neutralised. -/
theorem resolves_edge (h : p.edge = some e) :
    Resolves input map [e.fixup.move front.length] s (front ++ (p.resolved map front.length).1 ++ back)
      (counts ++ (p.resolved map front.length).2 ++ counts') := by
  have hin := p.edge_in e h
  have hexternal : ¬isExternalFixup s.code.bytes (e.fixup.move front.length) = true := by
    rw [hbytes, isExternalFixup_edge hin]
    decide
  have hpatch : ((findEntry map (e.fixup.move front.length).guestTarget).bind fun entry =>
      patchRel32 s.code.bytes (e.fixup.move front.length).cachePatchOffset entry.cacheOffset) =
        (e.displacement map front.length).map fun d => front ++ e.bytes d ++ back := by
    rw [hbytes]
    exact patch_edge map hin
  unfold Resolves
  rw [resolveFixups, resolveFixup, if_neg hexternal, hpatch]
  cases hdisplacement : e.displacement map front.length with
  | some d =>
    refine ⟨_, rfl, ?_, ?_⟩
    · rw [Piece.resolved, h]
      dsimp only
      rw [hdisplacement]
      rfl
    · rw [Piece.resolved, h]
      dsimp only
      rw [hdisplacement]
      exact hcounts
  | none =>
    have hneutral := @neutralise_edge _ _ _ _ back _ _ _ _ hmap hbefore hafter hfresh h hdisplacement
    have hdirect : ¬(¬isDirectEdgeFixup (e.fixup.move front.length).kind = true) := not_not_intro hin.direct
    rw [Option.map_none]
    dsimp only
    rw [resolveUnmapped, if_neg hdirect, if_pos hmode, hbytes, hcounts, hneutral]
    exact ⟨_, rfl, rfl, rfl⟩

/-- The fixups of a piece leave its resolved bytes and count in its place. -/
theorem resolves_piece :
    Resolves input map (p.code.fixups.map (AotCodeCacheFixup.move front.length)) s
      (front ++ (p.resolved map front.length).1 ++ back)
      (counts ++ (p.resolved map front.length).2 ++ counts') := by
  have hmoved : ∀ xs : List AotCodeCacheFixup, (∀ x ∈ xs, isDirectEdgeFixup x.kind = false) →
      ∀ x ∈ xs.map (AotCodeCacheFixup.move front.length), isDirectEdgeFixup x.kind = false := by
    intro xs hxs x hx
    obtain ⟨y, hy, rfl⟩ := List.mem_map.mp hx
    exact hxs y hy
  cases hedge : p.edge with
  | none =>
    have hplain := @resolves_plain input map _ (hmoved _ (p.plain hedge)) s
    rw [Piece.resolved, hedge]
    rw [hbytes, hcounts] at hplain
    exact hplain
  | some e =>
    obtain ⟨xs, ys, hsplit, hxs, -, hys⟩ := List.filter_eq_cons_iff.mp (p.edge_in e hedge).fixups
    have hxs' : ∀ x ∈ xs, isDirectEdgeFixup x.kind = false := fun x hx => by simpa using hxs x hx
    have hys' : ∀ y ∈ ys, isDirectEdgeFixup y.kind = false := by
      intro y hy
      have := List.filter_eq_nil_iff.mp hys y hy
      simpa using this
    rw [hsplit, List.map_append, List.map_cons]
    apply (resolves_plain (hmoved xs hxs') s).append
    intro s₁ hbytes₁ hcounts₁
    rw [← List.singleton_append]
    apply (resolves_edge hmap hbefore hafter hfresh hmode (hbytes₁.trans hbytes) (hcounts₁.trans hcounts)
      hedge).append
    intro s₂ hbytes₂ hcounts₂
    have := @resolves_plain input map _ (hmoved ys hys') s₂
    rwa [hbytes₂, hcounts₂] at this

end

/-! ## A run of pieces -/

/-- The bytes of a run of pieces behind resolution. -/
def resolvedBytes (map : List AotAddressMapEntry) : ℕ → List Piece → List Byte
  | _, [] => []
  | base, p :: ps => (p.resolved map base).1 ++ resolvedBytes map (base + p.code.bytes.length) ps

/-- The instruction counts of a run of pieces behind resolution. -/
def resolvedCounts (map : List AotAddressMapEntry) : ℕ → List Piece → List ℕ
  | _, [] => []
  | base, p :: ps => (p.resolved map base).2 ++ resolvedCounts map (base + p.code.bytes.length) ps

section
variable {input : BuildInput} {map : List AotAddressMapEntry}

theorem resolves_pieces (hmode : input.options.enableLongModeEmission = true)
    (hdistinct : map.Pairwise fun e e' => e.guestAddress ≠ e'.guestAddress) (ps : List Piece)
    {front : List Byte} {before : List AotAddressMapEntry} {counts : List ℕ} {s : ResolveState}
    (hmap : map = before ++ piecesMap front.length ps) (hbefore : before.length = counts.length)
    (hbytes : s.code.bytes = front ++ piecesBytes ps)
    (hcounts : s.entryInstructions = counts ++ piecesCounts ps) :
    Resolves input map (piecesFixups front.length ps) s (front ++ resolvedBytes map front.length ps)
      (counts ++ resolvedCounts map front.length ps) := by
  induction ps generalizing front before counts s with
  | nil => exact ⟨s, rfl, hbytes, hcounts⟩
  | cons p ps ih =>
    rw [piecesMap, ← List.append_assoc] at hmap
    rw [piecesBytes, ← List.append_assoc] at hbytes
    rw [piecesCounts, ← List.append_assoc] at hcounts
    have hfresh : ∀ r n, p.entry = some (r, n) → ∀ entry ∈ before, entry.guestAddress ≠ r.guestAddress := by
      intro r n hentry entry hmem
      rw [hmap, List.append_assoc, List.pairwise_append] at hdistinct
      apply hdistinct.2.2 entry hmem ⟨r.guestAddress, front.length, r.length, p.code.bytes.length⟩
      rw [List.mem_append, Piece.mapEntry, hentry]
      exact Or.inl (List.mem_singleton_self _)
    have hpiece := resolves_piece hmap hbefore (piecesMap_length ps _) hfresh hmode hbytes hcounts
    obtain ⟨hlength, hlength'⟩ := p.resolved_length map front.length
    rw [piecesFixups, resolvedBytes, resolvedCounts, ← List.append_assoc, ← List.append_assoc]
    apply hpiece.append
    intro s' hbytes' hcounts'
    have hfront : front.length + p.code.bytes.length = (front ++ (p.resolved map front.length).1).length := by
      rw [List.length_append, hlength]
    rw [hfront] at hmap ⊢
    apply ih hmap _ hbytes' hcounts'
    rw [List.length_append, List.length_append, Piece.mapEntry_length, hlength', hbefore]

/-- Resolution of long-mode code never fails. -/
theorem resolves_emitted (hmode : input.options.enableLongModeEmission = true)
    {done : List AotInstructionRecord} {room : ℕ} {s : BuildState} {ps : List Piece}
    (h : InPieces input done room s ps)
    (hdistinct : s.addressMap.Pairwise fun e e' => e.guestAddress ≠ e'.guestAddress) :
    Resolves input s.addressMap s.code.fixups ⟨{ s.code with fixups := [] }, s.entryInstructions⟩
      (resolvedBytes s.addressMap 0 ps) (resolvedCounts s.addressMap 0 ps) := by
  rw [h.fixups]
  exact @resolves_pieces input _ hmode hdistinct ps [] [] [] _ h.map rfl h.bytes h.counts

end

end Repiu.Runtime
