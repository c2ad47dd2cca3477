import Repiu.Runtime.LongModeSlotSpecs
import Repiu.Runtime.SiteSpecs

/-!
# Emission

What the emission loop of `BuildAotCodeCacheImage` leaves behind: the layout of
the code, one entry for each guest address, and entry lengths that are the
lengths of the slots.
-/

namespace Repiu.Runtime

open Repiu.X86

/-! ## The layout of emitted code -/

theorem AotIndirectInlineCacheSite.move_zero (s : AotIndirectInlineCacheSite) : s.move 0 = s := by
  have hentry : AotInlineCacheEntry.move 0 = id := by
    funext e
    simp [AotInlineCacheEntry.move]
  have hoptional : ∀ n, moveOptional 0 n = n := by
    intro n
    unfold moveOptional
    split_ifs with h
    · exact Nat.zero_add n
    · exact (not_not.mp h).symm
  simp [AotIndirectInlineCacheSite.move, hentry, hoptional]

/-- A chain stays fresh while its bytes stay. -/
theorem ChainFresh.congr {mem mem' : Memory} {site : AotIndirectInlineCacheSite} {lo hi : ℕ}
    (h : ChainFresh mem site) (hin : ChainIn site lo hi)
    (heq : ∀ a, lo < a → a < aotInlineCacheGuardTargetOffset site → mem' a = mem a) :
    ChainFresh mem' site := by
  have hsame : ∀ a, lo < a → a < aotInlineCacheGuardTargetOffset site → mem' (0 + a) = mem a := by
    simpa using heq
  have := h.move hin 0 hsame
  rwa [site.move_zero] at this

/-- What emission guarantees of the code emitted so far. -/
structure EmitSpec (code : Fragment) (map : List AotAddressMapEntry) : Prop where
  sites : SiteSpec code.segmentViews code.indirectInlineCacheSites map code.bytes.length
  windows : WindowSpec code.placementWindows code.indirectInlineCacheSites map code.bytes.length
  fixups : FixupsIn code
  fixups_chains : ∀ x ∈ code.fixups, ∀ s ∈ code.indirectInlineCacheSites,
    x.cachePatchOffset + fixupWidth code.bytes x ≤ s.cacheOffset ∨
      aotInlineCacheGuardTargetOffset s ≤ x.cachePatchOffset
  fresh : ∀ s ∈ code.indirectInlineCacheSites, ChainFresh (ofBytes code.bytes) s

theorem SlotSpec.emitSpec {f : Fragment} (h : SlotSpec f) (guestAddress : Word) (guestLength : ℕ) :
    EmitSpec f [slotEntry guestAddress guestLength f] where
  sites := h.siteSpec guestAddress guestLength
  windows := h.windowSpec guestAddress guestLength
  fixups := h.fixups
  fixups_chains := by
    intro x hx s hs
    rcases h.chain with hnil | ⟨site, -, hchain⟩
    · rw [hnil] at hs
      cases hs
    · rw [hchain.no_fixups] at hx
      cases hx
  fresh := by
    intro s hs
    rcases h.chain with hnil | ⟨site, hsite, hchain⟩
    · rw [hnil] at hs
      cases hs
    · rw [hsite, List.mem_singleton] at hs
      exact hs ▸ hchain.fresh

theorem GapSpec.emitSpec {f : Fragment} (h : GapSpec f) : EmitSpec f [] where
  sites := by
    rw [h.no_views, h.no_chain]
    exact SiteSpec.empty _
  windows := by
    rw [h.no_chain]
    exact h.windowSpec
  fixups := h.fixups
  fixups_chains := by simp [h.no_chain]
  fresh := by simp [h.no_chain]

theorem EmitSpec.empty : EmitSpec {} [] := gapSpec_empty.emitSpec

/-- Code behind code. -/
theorem EmitSpec.append {a b : Fragment} {map₁ map₂ : List AotAddressMapEntry}
    (h₁ : EmitSpec a map₁) (h₂ : EmitSpec b map₂) :
    EmitSpec (a.append b) (map₁ ++ map₂.map (AotAddressMapEntry.move a.bytes.length)) where
  sites := by
    rw [Fragment.append_bytes_length]
    refine h₁.sites.append h₂.sites ?_
    intro v hv
    refine Fragment.mem_segmentViews_append ?_ hv
    intro v' hv' w hw
    obtain ⟨e, -, hin⟩ := h₂.sites.views_in v' hv'
    have := hin.windows_in w hw
    omega
  windows := by
    rw [Fragment.append_bytes_length]
    exact h₁.windows.append h₂.windows h₁.sites fun w hw => Fragment.mem_placementWindows_append hw
  fixups := h₁.fixups.append h₂.fixups
  fixups_chains := by
    intro x hx s hs
    have hleft : ∀ x ∈ a.fixups, fixupWidth (a.append b).bytes x = fixupWidth a.bytes x := by
      intro x hx
      simp only [fixupWidth, Fragment.append_bytes, isExternalFixup_left (h₁.fixups.lt_length hx)]
    rcases List.mem_append.mp hx with hx | hx <;> rcases List.mem_append.mp hs with hs | hs
    · rw [hleft x hx]
      exact h₁.fixups_chains x hx s hs
    · obtain ⟨s', -, rfl⟩ := List.mem_map.mp hs
      have := h₁.fixups.inside x hx
      rw [hleft x hx]
      simp only [AotIndirectInlineCacheSite.move]
      omega
    · obtain ⟨x', -, rfl⟩ := List.mem_map.mp hx
      have := h₁.sites.chain_lt hs
      simp only [AotCodeCacheFixup.move]
      omega
    · obtain ⟨x', hx', rfl⟩ := List.mem_map.mp hx
      obtain ⟨s', hs', rfl⟩ := List.mem_map.mp hs
      have := h₂.fixups_chains x' hx' s' hs'
      have hwidth : fixupWidth (a.append b).bytes (x'.move a.bytes.length) = fixupWidth b.bytes x' := by
        simp only [fixupWidth, Fragment.append_bytes, isExternalFixup_move]
      rw [hwidth, aotInlineCacheGuardTargetOffset_move]
      simp only [AotCodeCacheFixup.move, AotIndirectInlineCacheSite.move]
      omega
  fresh := by
    intro s hs
    rcases List.mem_append.mp hs with hs | hs
    · obtain ⟨e, -, hin⟩ := h₁.sites.chains_in s hs
      have hlt := h₁.sites.chain_lt hs
      refine (h₁.fresh s hs).congr hin fun i _ hi => ?_
      simp only [ofBytes, Fragment.append_bytes]
      exact List.getD_append _ _ _ _ (by omega)
    · obtain ⟨s', hs', rfl⟩ := List.mem_map.mp hs
      obtain ⟨e, -, hin⟩ := h₂.sites.chains_in s' hs'
      refine (h₂.fresh s' hs').move hin _ fun i _ _ => ?_
      simp only [ofBytes, Fragment.append_bytes]
      exact getD_append_add i

theorem EmitSpec.gap {a b : Fragment} {map : List AotAddressMapEntry} (h : EmitSpec a map)
    (hb : GapSpec b) : EmitSpec (a.append b) map := by
  have := h.append hb.emitSpec
  rwa [List.map_nil, List.append_nil] at this

/-! ## The loop -/

/-- What the loop has done with the records `done`. -/
structure Emitted (input : BuildInput) (done : List AotInstructionRecord) (s : BuildState) : Prop where
  spec : EmitSpec s.code s.addressMap
  no_chain : input.options.enableLongModeEmission = true → s.code.indirectInlineCacheSites = []
  mapped : ∀ r ∈ done, (findEntry s.addressMap r.guestAddress).isSome
  entries : ∀ e ∈ s.addressMap, ∃ r, (done.find? fun r => r.guestAddress = e.guestAddress) = some r ∧
    e.guestLength = r.length ∧ e.emittedLength = (emitSlot input r).code.bytes.length
  distinct : s.addressMap.Pairwise fun e e' => e.guestAddress ≠ e'.guestAddress

/-- The records emission can rely on. -/
structure Emittable (input : BuildInput) (record : AotInstructionRecord) : Prop where
  push : PushRows input.table
  planned : Planned input.table record

theorem Planned.recordWF {table : Table} {record : AotInstructionRecord} (h : Planned table record) :
    RecordWF record := by
  rcases h with ⟨hnil, hkind⟩ | ⟨i, hi⟩
  · exact ⟨by simp [hnil], fun _ => hkind⟩
  · have hle := decode_length_le hi.decodes
    have hpos := i.length_pos
    have hlen := hi.bytes_length
    unfold maxInstructionLength at hle
    refine ⟨by omega, fun hnil => ?_⟩
    rw [hnil, List.length_nil] at hlen
    omega

theorem slotSpec_emitSlot {input : BuildInput} {record : AotInstructionRecord}
    (h : Emittable input record) :
    SlotSpec (emitSlot input record).code ∧ (emitSlot input record).code.bytes.length ≤ 255 := by
  have hwf := h.planned.recordWF
  unfold emitSlot
  split_ifs
  · have := longModeSpec_emitLongMode h.push input.host input.options h.planned hwf.length_le
    exact ⟨this.spec, this.short⟩
  · exact slotSpec_emitLegacy input.table input.options hwf

theorem no_chain_emitSlot {input : BuildInput} {record : AotInstructionRecord}
    (h : Emittable input record) (hmode : input.options.enableLongModeEmission = true) :
    (emitSlot input record).code.indirectInlineCacheSites = [] := by
  rw [emitSlot, if_pos hmode]
  exact (longModeSpec_emitLongMode h.push input.host input.options h.planned
    h.planned.recordWF.length_le).no_chain

theorem gapSpec_emitBlockFallthrough (source target : Word) :
    GapSpec (emitBlockFallthrough source target) :=
  gapSpec_edge (by simp [appendRel32]) (by simp)

theorem gapSpec_pendingEdge (pending : Option (Word × Word)) (address : Word) :
    GapSpec (pendingEdge pending address) := by
  unfold pendingEdge
  split
  · split_ifs
    · exact gapSpec_emitBlockFallthrough _ _
    · exact gapSpec_empty
  · exact gapSpec_empty

theorem findEntry_eq_none {map : List AotAddressMapEntry} {address : Word} :
    findEntry map address = none ↔ ∀ e ∈ map, e.guestAddress ≠ address := by
  simp [findEntry, List.find?_eq_none]

theorem findEntry_isSome {map : List AotAddressMapEntry} {address : Word} :
    (findEntry map address).isSome ↔ ∃ e ∈ map, e.guestAddress = address := by
  simp [findEntry, List.find?_isSome]

theorem Emitted.mono {input : BuildInput} {done : List AotInstructionRecord} {s : BuildState}
    (h : Emitted input done s) {record : AotInstructionRecord}
    (hmapped : (findEntry s.addressMap record.guestAddress).isSome) :
    Emitted input (done ++ [record]) s where
  spec := h.spec
  no_chain := h.no_chain
  mapped := by
    intro r hr
    rcases List.mem_append.mp hr with hr | hr
    · exact h.mapped r hr
    · rw [List.mem_singleton.mp hr]
      exact hmapped
  entries := by
    intro e he
    obtain ⟨r, hr, hrest⟩ := h.entries e he
    exact ⟨r, by rw [List.find?_append, hr, Option.some_or], hrest⟩
  distinct := h.distinct

/-- One record. -/
theorem Emitted.emitRecord {input : BuildInput} {done : List AotInstructionRecord} {s : BuildState}
    (h : Emitted input done s) {record : AotInstructionRecord} (hrecord : Emittable input record) :
    Emitted input (done ++ [record]) (emitRecord input s record) := by
  by_cases hmapped : (findEntry s.addressMap record.guestAddress).isSome
  · rw [Runtime.emitRecord, if_pos hmapped]
    exact h.mono hmapped
  obtain ⟨hslot, hshort⟩ := slotSpec_emitSlot hrecord
  have hfresh : ∀ e ∈ s.addressMap, e.guestAddress ≠ record.guestAddress := by
    rw [Option.not_isSome_iff_eq_none] at hmapped
    exact findEntry_eq_none.mp hmapped
  have hdone : (done.find? fun r => r.guestAddress = record.guestAddress) = none := by
    rw [List.find?_eq_none]
    intro r hr heq
    have := h.mapped r hr
    rw [of_decide_eq_true heq] at this
    exact hmapped this
  have hcode := (h.spec.gap (gapSpec_pendingEdge s.pending record.guestAddress)).append
    (hslot.emitSpec record.guestAddress record.length)
  rw [Runtime.emitRecord, if_neg hmapped]
  simp only
  set code := s.code.append (pendingEdge s.pending record.guestAddress) with hcodeEq
  have hentry : ({ guestAddress := record.guestAddress
                   cacheOffset := code.bytes.length
                   guestLength := record.length
                   emittedLength := (emitSlot input record).code.bytes.length % 256 }
        : AotAddressMapEntry) =
      (slotEntry record.guestAddress record.length (emitSlot input record).code).move
        code.bytes.length := by
    simp only [slotEntry, AotAddressMapEntry.move, Nat.add_zero]
    rw [Nat.mod_eq_of_lt (by omega)]
  rw [hentry]
  refine ⟨hcode, ?_, ?_, ?_, ?_⟩
  · intro hmode
    have hnone := no_chain_emitSlot hrecord hmode
    simp only [Fragment.append, hnone, hcodeEq, h.no_chain hmode,
      (gapSpec_pendingEdge s.pending record.guestAddress).no_chain, List.map_nil, List.append_nil]
  · intro r hr
    rw [findEntry_isSome]
    rcases List.mem_append.mp hr with hr | hr
    · obtain ⟨e, he, heq⟩ := findEntry_isSome.mp (h.mapped r hr)
      exact ⟨e, List.mem_append_left _ he, heq⟩
    · rw [List.mem_singleton.mp hr]
      exact ⟨_, List.mem_append_right _ (List.mem_singleton_self _), rfl⟩
  · intro e he
    rcases List.mem_append.mp he with he | he
    · obtain ⟨r, hr, hrest⟩ := h.entries e he
      exact ⟨r, by rw [List.find?_append, hr, Option.some_or], hrest⟩
    · rw [List.mem_singleton.mp he]
      refine ⟨record, ?_, rfl, rfl⟩
      have hfind : ((done ++ [record]).find? fun r => r.guestAddress = record.guestAddress) = some record := by
        rw [List.find?_append, hdone, Option.none_or]
        simp
      exact hfind
  · refine List.pairwise_append.mpr ⟨h.distinct, List.pairwise_singleton _ _, ?_⟩
    intro e he e' he'
    rw [List.mem_singleton.mp he']
    exact hfresh e he

/-- More code without an entry. -/
theorem Emitted.gap {input : BuildInput} {done : List AotInstructionRecord} {s : BuildState}
    (h : Emitted input done s) {g : Fragment} (hg : GapSpec g) (pending : Option (Word × Word)) :
    Emitted input done { s with code := s.code.append g, pending := pending } where
  spec := h.spec.gap hg
  no_chain := by
    intro hmode
    simp only [Fragment.append, h.no_chain hmode, hg.no_chain, List.map_nil, List.append_nil]
  mapped := h.mapped
  entries := h.entries
  distinct := h.distinct

theorem Emitted.closeBlock {input : BuildInput} {done : List AotInstructionRecord} {s : BuildState}
    (h : Emitted input done s) (block : AotBasicBlock) :
    Emitted input done (closeBlock input s block) := by
  unfold Runtime.closeBlock
  split
  · split
    · exact h
    · split
      · split
        · exact ⟨h.spec, h.no_chain, h.mapped, h.entries, h.distinct⟩
        · exact h
      · exact (h.gap (gapSpec_safePointIf _ _ _) none).gap (gapSpec_emitBlockFallthrough _ _) s.pending
      · exact h
  · exact h

theorem Emitted.emitRecords {input : BuildInput} {done : List AotInstructionRecord} {s : BuildState}
    (h : Emitted input done s) (records : List AotInstructionRecord)
    (hrecords : ∀ r ∈ records, Emittable input r) :
    Emitted input (done ++ records) (records.foldl (Runtime.emitRecord input) s) := by
  induction records generalizing done s with
  | nil => simpa using h
  | cons r rs ih =>
    have := ih (h.emitRecord (hrecords r List.mem_cons_self))
      fun x hx => hrecords x (List.mem_cons_of_mem r hx)
    rwa [List.append_assoc] at this

theorem Emitted.blocks {input : BuildInput} {done : List AotInstructionRecord} {s : BuildState}
    (h : Emitted input done s) (blocks : List AotBasicBlock)
    (hblocks : RecordInvariant.All (Emittable input) blocks) :
    Emitted input (done ++ (blocks.map AotBasicBlock.instructions).flatten)
      (blocks.foldl (emitBlock input) s) := by
  induction blocks generalizing done s with
  | nil => simpa using h
  | cons b bs ih =>
    have := ih ((h.emitRecords b.instructions (hblocks b List.mem_cons_self)).closeBlock b)
      fun x hx => hblocks x (List.mem_cons_of_mem b hx)
    rw [List.append_assoc] at this
    exact this

/-- The whole emission. -/
theorem emitted_emitBlocks {input : BuildInput} {blocks : List AotBasicBlock}
    (hblocks : RecordInvariant.All (Emittable input) blocks) :
    Emitted input (blocks.map AotBasicBlock.instructions).flatten (emitBlocks input blocks) := by
  have hstart : Emitted input [] {} :=
    ⟨EmitSpec.empty, fun _ => rfl, by simp, by simp, List.Pairwise.nil⟩
  have h := hstart.blocks blocks hblocks
  rw [List.nil_append] at h
  unfold emitBlocks
  simp only
  split
  · exact h.gap (gapSpec_emitBlockFallthrough _ _) none
  · exact h

end Repiu.Runtime
