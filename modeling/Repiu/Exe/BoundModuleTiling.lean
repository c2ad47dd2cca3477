import Repiu.Engine.DpmiAllocation
import Repiu.Exe.Dos16mBoundModule
import Repiu.RangeTiling

/-!
# Bound modules tile their file

What a module says of itself when its parse succeeds, how the modules of a file lie in it, and when the
parse ends.
-/

namespace Repiu.Exe

open Repiu.Engine Repiu.RangeTiling

/-! ## Segments -/

/-- Each relocation of a segment names two bytes of its image. -/
def Dos16mBoundSegment.Fits (segment : Dos16mBoundSegment) : Prop :=
  ∀ offset ∈ segment.selectorRelocationOffsets, offset.toNat + 2 ≤ segment.image.length

section
variable {data : List Byte} {headerOffset gdtOffset nextHeader : Word} {firstSelector : BitVec 16}

/-- The segments of a table have the selectors of its entries, and no relocations yet. -/
theorem parseSegments_ok {count index : ℕ} {copyCursor copyCursor' : Word} {segments : List Dos16mBoundSegment}
    (h : parseSegments data headerOffset gdtOffset nextHeader firstSelector count index copyCursor =
      .ok (segments, copyCursor')) :
    segments.map (·.selector) =
        (List.range' index count).map (fun i => firstSelector + BitVec.ofNat 16 (i * kGdtEntrySize.toNat)) ∧
      ∀ segment ∈ segments, segment.selectorRelocationOffsets = [] := by
  induction count generalizing index copyCursor copyCursor' segments with
  | zero =>
    cases h
    exact ⟨rfl, by simp⟩
  | succ count ih =>
    rw [parseSegments] at h
    dsimp only at h
    rw [List.range'_succ, List.map_cons]
    by_cases hcopied : read16 data (gdtEntryAt gdtOffset index + 6) &&& kBssMarker = 0
    · rw [if_pos hcopied] at h
      split_ifs at h with hrange
      split at h
      · cases h
      · rename_i rest _ hrest
        obtain ⟨hselectors, hnone⟩ := ih hrest
        cases h
        rw [List.map_cons, hselectors, List.forall_mem_cons]
        exact ⟨rfl, rfl, hnone⟩
    · rw [if_neg hcopied] at h
      split at h
      · cases h
      · rename_i rest _ hrest
        obtain ⟨hselectors, hnone⟩ := ih hrest
        cases h
        rw [List.map_cons, hselectors, List.forall_mem_cons]
        exact ⟨rfl, rfl, hnone⟩

theorem relocateOffsets_ok {copyCursor : Word} {count index : ℕ} {segment segment' : Dos16mBoundSegment}
    (h : relocateOffsets data copyCursor count index segment = .ok segment') (hfits : segment.Fits) :
    segment'.selector = segment.selector ∧ segment'.Fits := by
  induction count generalizing index segment with
  | zero =>
    cases h
    exact ⟨rfl, hfits⟩
  | succ count ih =>
    rw [relocateOffsets] at h
    split_ifs at h with hlast
    apply ih h
    intro offset hoffset
    rcases List.mem_append.mp hoffset with hbefore | hnew
    · exact hfits offset hbefore
    · rw [List.mem_singleton.mp hnew]
      exact not_lt.mp hlast

theorem selectors_replaceSegment (segment : Dos16mBoundSegment) (segments : List Dos16mBoundSegment) :
    (replaceSegment segment segments).map (·.selector) = segments.map (·.selector) := by
  induction segments with
  | nil => rfl
  | cons first rest ih =>
    rw [replaceSegment]
    by_cases hselector : first.selector = segment.selector
    · rw [if_pos hselector, List.map_cons, List.map_cons, hselector]
    · rw [if_neg hselector, List.map_cons, List.map_cons, ih]

theorem mem_replaceSegment {segment other : Dos16mBoundSegment} {segments : List Dos16mBoundSegment}
    (h : other ∈ replaceSegment segment segments) : other = segment ∨ other ∈ segments := by
  induction segments with
  | nil => cases h
  | cons first rest ih =>
    rw [replaceSegment] at h
    split_ifs at h
    · rcases List.mem_cons.mp h with heq | hrest
      · exact Or.inl heq
      · exact Or.inr (List.mem_cons_of_mem _ hrest)
    · rcases List.mem_cons.mp h with heq | hrest
      · exact Or.inr (heq ▸ List.mem_cons_self)
      · exact (ih hrest).imp_right (List.mem_cons_of_mem _)

end

/-! ## The relocation stream -/

/-- The selectors of a table, with relocations that fit their segments. -/
structure RelocationState.Sound (s : RelocationState) (selectors : List (BitVec 16)) : Prop where
  selectors : s.segments.map (·.selector) = selectors
  fits : ∀ segment ∈ s.segments, segment.Fits

section
variable {data : List Byte} {relocationEnd : Word}

/-- A block goes on to behind its offsets, which lie before the end of the stream. -/
theorem relocationBlock_ok {s s' : RelocationState} {rawSelector count : BitVec 16}
    (h : relocationBlock data relocationEnd s rawSelector count = .ok s') :
    s'.copyCursor.toNat = (s.copyCursor + 4).toNat + count.toNat * 2 ∧ s'.copyCursor.toNat ≤ relocationEnd.toNat ∧
      ∀ selectors, s.Sound selectors → s'.Sound selectors := by
  unfold relocationBlock at h
  dsimp only at h
  split_ifs at h with hlong
  cases hfound : findSegment s.segments (rawSelector &&& ~~~0x0002) with
  | none =>
    rw [hfound] at h
    cases h
  | some segment =>
    rw [hfound] at h
    dsimp only at h
    cases hoffsets : relocateOffsets data (s.copyCursor + 4) count.toNat 0 segment with
    | error e =>
      rw [hoffsets] at h
      cases h
    | ok segment' =>
      rw [hoffsets] at h
      cases h
      have hend := relocationEnd.isLt
      have hcursor : (s.copyCursor + 4 + BitVec.ofNat 32 (count.toNat * 2)).toNat =
          (s.copyCursor + 4).toNat + count.toNat * 2 := by
        rw [BitVec.toNat_add, BitVec.toNat_ofNat]
        omega
      refine ⟨hcursor, ?_, ?_⟩
      · show (s.copyCursor + 4 + BitVec.ofNat 32 (count.toNat * 2)).toNat ≤ _
        omega
      · intro selectors hsound
        have hmem : segment ∈ s.segments := List.mem_of_find?_eq_some hfound
        obtain ⟨-, hfits⟩ := relocateOffsets_ok hoffsets (hsound.fits segment hmem)
        refine ⟨(selectors_replaceSegment segment' s.segments).trans hsound.selectors, ?_⟩
        intro other hother
        rcases mem_replaceSegment hother with rfl | hbefore
        · exact hfits
        · exact hsound.fits other hbefore

/-- What one turn of the stream does. -/
theorem streamStep_spec (data : List Byte) (relocationEnd : Word) (s : RelocationState) :
    match streamStep data relocationEnd s with
    | .stops _ s' => ∀ selectors, s.Sound selectors → s'.Sound selectors
    | .fails _ => True
    | .goesOn s' => s'.copyCursor.toNat ≤ relocationEnd.toNat ∧
        (s.copyCursor + 4).toNat ≤ s'.copyCursor.toNat ∧ ∀ selectors, s.Sound selectors → s'.Sound selectors := by
  unfold streamStep
  dsimp only
  by_cases hstop : ¬s.copyCursor + 4 ≤ relocationEnd ∨
      (read16 data s.copyCursor = 0 ∧ read16 data (s.copyCursor + 2) = 0)
  · rw [if_pos hstop]
    exact fun _ hsound => hsound
  · rw [if_neg hstop]
    cases hblock : relocationBlock data relocationEnd s (read16 data s.copyCursor)
        (read16 data (s.copyCursor + 2)) with
    | error e => trivial
    | ok s' =>
      dsimp only
      obtain ⟨hnext, hbefore, hsound⟩ := relocationBlock_ok hblock
      by_cases hterminal : read16 data s.copyCursor &&& 0x0002 ≠ 0
      · rw [if_pos hterminal]
        exact hsound
      · rw [if_neg hterminal]
        exact ⟨hbefore, by omega, hsound⟩

theorem relocationStream_sound {fuel : ℕ} {s s' : RelocationState} {terminal : Bool} {selectors : List (BitVec 16)}
    (hsound : s.Sound selectors)
    (h : relocationStream data relocationEnd fuel s = some (.ok (terminal, s'))) : s'.Sound selectors := by
  induction fuel generalizing s with
  | zero => cases h
  | succ fuel ih =>
    have hstep := streamStep_spec data relocationEnd s
    rw [relocationStream] at h
    split at h
    · rename_i heq
      rw [heq] at hstep
      cases h
      exact hstep selectors hsound
    · cases h
    · rename_i heq
      rw [heq] at hstep
      exact ih (hstep.2.2 selectors hsound) h

/-- Below the last four bytes of the offsets, a stream that begins before its end comes to an end. -/
theorem relocationStream_ends (hend : relocationEnd.toNat < 2 ^ 32 - 4) {fuel : ℕ} {s : RelocationState}
    (hcursor : s.copyCursor.toNat ≤ relocationEnd.toNat) (hfuel : relocationEnd.toNat - s.copyCursor.toNat < fuel) :
    (relocationStream data relocationEnd fuel s).isSome := by
  induction fuel generalizing s with
  | zero => omega
  | succ fuel ih =>
    have hstep := streamStep_spec data relocationEnd s
    rw [relocationStream]
    split
    · rfl
    · rfl
    · rename_i s' heq
      rw [heq] at hstep
      have hsum : (s.copyCursor + 4).toNat = s.copyCursor.toNat + 4 := by
        rw [BitVec.toNat_add]
        show (s.copyCursor.toNat + 4) % 2 ^ 32 = _
        omega
      have hbefore := hstep.1
      have hnext := hstep.2.1
      apply ih hbefore
      omega

/-- Where the first block begins behind the end, the next one does not. -/
theorem relocationStream_isSome (hend : relocationEnd.toNat < 2 ^ 32 - 4) {fuel : ℕ} (hfuel : 2 ^ 32 < fuel)
    (s : RelocationState) : (relocationStream data relocationEnd fuel s).isSome := by
  obtain ⟨fuel, rfl⟩ := Nat.exists_eq_succ_of_ne_zero (show fuel ≠ 0 by omega)
  have hstep := streamStep_spec data relocationEnd s
  rw [relocationStream]
  split
  · rfl
  · rfl
  · rename_i s' heq
    rw [heq] at hstep
    apply relocationStream_ends hend hstep.1
    omega

end

/-! ## One module -/

/-- A module that lies in the file, with one segment for each selector and relocations that fit. -/
structure Dos16mBoundModule.WellFormed (boundModule : Dos16mBoundModule) (data : List Byte) : Prop where
  ordered : boundModule.headerFileOffset.toNat < boundModule.nextHeaderFileOffset.toNat
  inFile : boundModule.nextHeaderFileOffset.toNat ≤ data.length
  selectors : (boundModule.segments.map (·.selector)).Nodup
  fits : ∀ segment ∈ boundModule.segments, segment.Fits

section
variable {data : List Byte} {headerOffset : Word}

theorem parseModuleSegments_ok {segments : List Dos16mBoundSegment} {copyCursor : Word}
    (h : parseModuleSegments data headerOffset = .ok (segments, copyCursor)) :
    ¬(readBwHeader data headerOffset).Invalid data headerOffset ∧ (segments.map (·.selector)).Nodup ∧
      ∀ segment ∈ segments, segment.Fits := by
  unfold parseModuleSegments at h
  dsimp only at h
  split_ifs at h with hmagic hlayout hname hgroups hgdt
  obtain ⟨hselectors, hnone⟩ := parseSegments_ok h
  refine ⟨hlayout, ?_, ?_⟩
  · have hlast : (readBwHeader data headerOffset).firstSelector.toNat +
        8 * (readBwHeader data headerOffset).groupCount ≤ 2 ^ 16 := by
      have hrelocation := (readBwHeader data headerOffset).firstRelocationSelector.isLt
      unfold BwHeader.Invalid at hlayout
      simp only [not_or, BitVec.lt_def, not_lt] at hlayout
      obtain ⟨-, -, -, -, hordered, -⟩ := hlayout
      unfold BwHeader.groupCount BwHeader.selectorSpan
      show _ + 8 * (_ / 8) ≤ _
      omega
    rw [hselectors, ← List.range_eq_range']
    have hnodup := nodup_selectorsFrom hlast
    unfold selectorsFrom at hnodup
    simp only [Nat.mul_comm 8] at hnodup
    exact hnodup
  · intro segment hsegment offset hoffset
    rw [hnone segment hsegment] at hoffset
    cases hoffset

/-- What a module says of itself when its parse succeeds. -/
theorem parseModule_ok {fuel : ℕ} {boundModule : Dos16mBoundModule}
    (h : parseModule fuel data headerOffset = some (.ok boundModule)) :
    boundModule.headerFileOffset = headerOffset ∧ boundModule.WellFormed data := by
  unfold parseModule at h
  cases hsegments : parseModuleSegments data headerOffset with
  | error e =>
    rw [hsegments] at h
    cases h
  | ok found =>
    obtain ⟨segments, copyCursor⟩ := found
    obtain ⟨hlayout, hnodup, hfits⟩ := parseModuleSegments_ok hsegments
    rw [hsegments] at h
    dsimp only at h
    split at h
    · cases h
    split at h
    · cases h
    · cases h
    · rename_i terminal s hstream
      split at h
      · cases h
      split at h
      · cases h
      · cases h
        obtain ⟨hselectors, hfits'⟩ := relocationStream_sound ⟨rfl, hfits⟩ hstream
        unfold BwHeader.Invalid at hlayout
        simp only [not_or, BitVec.not_le, BitVec.lt_def, not_lt] at hlayout
        refine ⟨rfl, hlayout.1, hlayout.2.1, ?_, hfits'⟩
        rw [hselectors]
        exact hnodup

/-- A file that ends below the last four bytes of the offsets has no endless relocation stream. -/
theorem parseModule_isSome (hlength : data.length < 2 ^ 32 - 4) {fuel : ℕ} (hfuel : 2 ^ 32 < fuel) :
    (parseModule fuel data headerOffset).isSome := by
  unfold parseModule
  cases hsegments : parseModuleSegments data headerOffset with
  | error e => rfl
  | ok found =>
    obtain ⟨segments, copyCursor⟩ := found
    dsimp only
    split_ifs with hend
    · rfl
    · have hlayout := (parseModuleSegments_ok hsegments).1
      unfold BwHeader.Invalid at hlayout
      simp only [not_or, not_lt] at hlayout
      rw [not_not] at hend
      have hbelow : (readBwHeader data headerOffset).nextHeader.toNat < 2 ^ 32 - 4 :=
        lt_of_le_of_lt hlayout.2.1 hlength
      rw [← hend] at hbelow
      obtain ⟨result, hresult⟩ := Option.isSome_iff_exists.mp (relocationStream_isSome hbelow hfuel
        ⟨copyCursor, segments, 0⟩)
      rw [hresult]
      rcases result with e | ⟨terminal, s⟩
      · rfl
      · dsimp only
        split_ifs
        · split <;> rfl
        · rfl

end

/-! ## The chain -/

/-- Where the modules of a list lie in the file. -/
def moduleRanges (modules : List Dos16mBoundModule) : List (ℕ × ℕ) :=
  modules.map fun boundModule => (boundModule.headerFileOffset.toNat, boundModule.nextHeaderFileOffset.toNat)

/-- One step of the chain: a header whose module is read, and the next header it names. -/
def ChainStep (data : List Byte) (next header : Word) : Prop :=
  ∃ fuel boundModule, parseModule fuel data header = some (.ok boundModule) ∧
    boundModule.nextHeaderFileOffset = next

/-- Offsets of 32 bits that go up come to an end. -/
theorem wellFounded_chainStep (data : List Byte) : WellFounded (ChainStep data) := by
  have hsub : Subrelation (ChainStep data) (InvImage (· < ·) fun header : Word => 2 ^ 32 - header.toNat) := by
    intro next header hstep
    obtain ⟨fuel, boundModule, hmodule, rfl⟩ := hstep
    obtain ⟨hheader, hwell⟩ := parseModule_ok hmodule
    have hordered := hwell.ordered
    rw [hheader] at hordered
    have hnext := boundModule.nextHeaderFileOffset.isLt
    show 2 ^ 32 - boundModule.nextHeaderFileOffset.toNat < 2 ^ 32 - header.toNat
    omega
  exact hsub.wf (InvImage.wf _ wellFounded_lt)

section
variable {data : List Byte}

/-- What the walk leaves behind. -/
structure Dos16mParse.Sound (parse : Dos16mParse) (data : List Byte) : Prop where
  /-- A walk that succeeds has tiled the file behind the MZ image. -/
  tiles : parse.succeeds = true → Tiles (mzImageEnd data).toNat (moduleRanges parse.modules) data.length
  wellFormed : parse.succeeds = true → ∀ boundModule ∈ parse.modules, boundModule.WellFormed data
  empty : parse.succeeds = false → parse.modules = []

theorem Dos16mParse.sound_fails (data : List Byte) (error : ParseError) : (Dos16mParse.fails [] error).Sound data where
  tiles h := by cases h
  wellFormed h := by cases h
  empty _ := rfl

/-- The walk goes on behind the modules that it has. -/
theorem walkModules_sound {fuel : ℕ} {cursor : Word} {modules : List Dos16mBoundModule} {parse : Dos16mParse}
    (htiles : Tiles (mzImageEnd data).toNat (moduleRanges modules) cursor.toNat)
    (hwell : ∀ boundModule ∈ modules, boundModule.WellFormed data) (hcursor : cursor.toNat ≤ data.length)
    (h : walkModules data fuel cursor modules = some parse) : parse.Sound data := by
  induction fuel generalizing cursor modules with
  | zero => cases h
  | succ fuel ih =>
    rw [walkModules] at h
    by_cases hmore : cursor.toNat < data.length
    · rw [if_pos hmore] at h
      split at h
      · cases h
      · cases h
        exact Dos16mParse.sound_fails data _
      · rename_i boundModule hmodule
        obtain ⟨hheader, hwellModule⟩ := parseModule_ok hmodule
        refine ih ?_ ?_ hwellModule.inFile h
        · unfold moduleRanges at htiles ⊢
          rw [List.map_append, List.map_singleton, hheader]
          apply htiles.snoc
          rw [← hheader]
          exact hwellModule.ordered
        · intro other hother
          rcases List.mem_append.mp hother with hbefore | hnew
          · exact hwell other hbefore
          · rw [List.mem_singleton.mp hnew]
            exact hwellModule
    · rw [if_neg hmore] at h
      have hend : cursor.toNat = data.length := by omega
      by_cases hempty : modules.isEmpty
      · rw [if_pos hempty] at h
        cases h
        rw [List.isEmpty_iff.mp hempty]
        exact Dos16mParse.sound_fails data _
      · rw [if_neg hempty] at h
        cases h
        exact ⟨fun _ => hend ▸ htiles, fun _ => hwell, fun hfails => by cases hfails⟩

/-- The walk ends when each of its modules does. -/
theorem walkModules_isSome (hlength : data.length < 2 ^ 32 - 4) {fuel : ℕ} {cursor : Word}
    {modules : List Dos16mBoundModule} (hfuel : 2 ^ 32 + (2 ^ 32 - cursor.toNat) < fuel) :
    (walkModules data fuel cursor modules).isSome := by
  induction fuel generalizing cursor modules with
  | zero => omega
  | succ fuel ih =>
    have hcursor := cursor.isLt
    rw [walkModules]
    split_ifs
    · obtain ⟨result, hresult⟩ := Option.isSome_iff_exists.mp
        (@parseModule_isSome data cursor hlength fuel (by omega))
      rw [hresult]
      rcases result with e | boundModule
      · rfl
      · obtain ⟨hheader, hwellModule⟩ := parseModule_ok hresult
        have hordered := hwellModule.ordered
        rw [hheader] at hordered
        apply ih
        omega
    · rfl
    · rfl

end

theorem parseDos16mBoundModules_sound {fuel : ℕ} {data : List Byte} {parse : Dos16mParse}
    (h : parseDos16mBoundModules fuel data = some parse) : parse.Sound data := by
  unfold parseDos16mBoundModules at h
  split_ifs at h with hmagic hpages hsize
  · cases h
    exact Dos16mParse.sound_fails data _
  · cases h
    exact Dos16mParse.sound_fails data _
  · cases h
    exact Dos16mParse.sound_fails data _
  · have hnone : Tiles (mzImageEnd data).toNat (moduleRanges []) (mzImageEnd data).toNat := rfl
    exact walkModules_sound hnone (by simp) (not_lt.mp hsize) h

theorem parseDos16mBoundModules_isSome {data : List Byte} (hlength : data.length < 2 ^ 32 - 4) {fuel : ℕ}
    (hfuel : 2 ^ 33 < fuel) : (parseDos16mBoundModules fuel data).isSome := by
  unfold parseDos16mBoundModules
  split_ifs
  · rfl
  · rfl
  · rfl
  · apply walkModules_isSome hlength
    omega

/-- Modules that are returned tile the file from the end of the MZ image on, each with one segment for a
selector and with relocations inside its segments; a failure returns none; and the chain comes to an end,
whatever the file. -/
theorem bound_modules_tile (data : List Byte) :
    (∀ fuel parse, parseDos16mBoundModules fuel data = some parse →
      (parse.succeeds = true →
        Tiles (mzImageEnd data).toNat (moduleRanges parse.modules) data.length ∧
        ((moduleRanges parse.modules).Pairwise fun a b => Disjoint (Set.Ico a.1 a.2) (Set.Ico b.1 b.2)) ∧
        (∀ offset, (∃ range ∈ moduleRanges parse.modules, offset ∈ Set.Ico range.1 range.2) ↔
          offset ∈ Set.Ico (mzImageEnd data).toNat data.length) ∧
        ∀ boundModule ∈ parse.modules, (boundModule.segments.map (·.selector)).Nodup ∧
          ∀ segment ∈ boundModule.segments, ∀ offset ∈ segment.selectorRelocationOffsets,
            offset.toNat + 2 ≤ segment.image.length) ∧
      (parse.succeeds = false → parse.modules = [])) ∧
    WellFounded (ChainStep data) ∧
    (data.length < 2 ^ 32 - 4 → ∃ enough, ∀ fuel ≥ enough, (parseDos16mBoundModules fuel data).isSome) := by
  refine ⟨?_, wellFounded_chainStep data, ?_⟩
  · intro fuel parse h
    have hsound := parseDos16mBoundModules_sound h
    refine ⟨?_, hsound.empty⟩
    intro hsucceeds
    have htiles := hsound.tiles hsucceeds
    refine ⟨htiles, htiles.pairwise_disjoint, htiles.mem_iff, ?_⟩
    intro boundModule hmem
    have hwell := hsound.wellFormed hsucceeds boundModule hmem
    exact ⟨hwell.selectors, hwell.fits⟩
  · intro hlength
    refine ⟨2 ^ 33 + 1, ?_⟩
    intro fuel hfuel
    apply parseDos16mBoundModules_isSome hlength
    omega

/-! ## A file -/

/-- The bytes of a 16-bit value. -/
def field16 (value : ℕ) : List Byte := le16 (BitVec.ofNat 16 value)

/-- An MZ image of 26 bytes with one module behind it: a segment of four bytes, and one relocation in it. -/
def sampleBoundFile : List Byte :=
  [0x4D, 0x5A] ++ field16 26 ++ field16 1 ++ List.replicate 20 0 ++
    [0x42, 0x57] ++ List.replicate 16 0 ++ field16 0x88 ++ field16 0 ++ field16 0x80 ++ List.replicate 4 0 ++
    field16 240 ++ List.replicate 26 0 ++ field16 143 ++ field16 0x80 ++ List.replicate 116 0 ++
    field16 3 ++ List.replicate 6 0 ++ field16 5 ++ List.replicate 6 0 ++ List.replicate 16 0 ++
    field16 0x82 ++ field16 1 ++ field16 2

theorem bound_modules_tile_sample :
    ∃ parse, parseDos16mBoundModules 4 sampleBoundFile = some parse ∧ parse.succeeds = true ∧
      Tiles 26 (moduleRanges parse.modules) 240 := by
  obtain ⟨parse, hparse, hsucceeds⟩ : ∃ parse, parseDos16mBoundModules 4 sampleBoundFile = some parse ∧
      parse.succeeds = true := by
    have hsome : ((parseDos16mBoundModules 4 sampleBoundFile).map (·.succeeds)) = some true := by decide +kernel
    exact Option.map_eq_some_iff.mp hsome
  have hmz : (mzImageEnd sampleBoundFile).toNat = 26 := by decide +kernel
  have hlength : sampleBoundFile.length = 240 := by decide +kernel
  have htiles := (((bound_modules_tile sampleBoundFile).1 4 parse hparse).1 hsucceeds).1
  rw [hmz, hlength] at htiles
  exact ⟨parse, hparse, hsucceeds, htiles⟩

end Repiu.Exe
