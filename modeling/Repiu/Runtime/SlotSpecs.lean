import Repiu.Runtime.Layout

/-!
# What the emitters guarantee

Every emitter of both back ends meets `SlotSpec`, and no slot of a record the
planner makes is longer than 255 bytes.
-/

namespace Repiu.Runtime

open Repiu.X86

/-! ## Plain slots -/

/-- Fixups in a fragment with one fixup. -/
theorem fixupsIn_single {f : Fragment} {x : AotCodeCacheFixup} (hf : f.fixups = [x])
    (hin : x.cachePatchOffset + fixupWidth f.bytes x ≤ f.bytes.length)
    (hpos : isExternalFixup f.bytes x = false → 0 < x.cachePatchOffset) : FixupsIn f where
  inside := by
    intro y hy
    rw [hf, List.mem_singleton] at hy
    exact hy ▸ hin
  positive := by
    intro y hy
    rw [hf, List.mem_singleton] at hy
    exact hy ▸ hpos
  sorted := by
    rw [hf]
    exact List.pairwise_singleton _ _

theorem fixupsIn_nil {f : Fragment} (hf : f.fixups = []) : FixupsIn f where
  inside := by simp [hf]
  positive := by simp [hf]
  sorted := by simp [hf]

/-- A fixup takes at most four bytes. -/
theorem fixupWidth_le (bytes : List Byte) (x : AotCodeCacheFixup) : fixupWidth bytes x ≤ 4 := by
  unfold fixupWidth
  split_ifs <;> omega

theorem fixupWidth_external {bytes : List Byte} {x : AotCodeCacheFixup}
    (h : isExternalFixup bytes x = true) : fixupWidth bytes x = 1 := by
  simp only [fixupWidth, h, if_true]

/-- A fragment without sites. -/
structure Plain (f : Fragment) : Prop where
  windows : f.placementWindows = []
  views : f.segmentViews = []
  chain : f.indirectInlineCacheSites = []

theorem Plain.slotSpec {f : Fragment} (h : Plain f) (hpos : 0 < f.bytes.length) (hfix : FixupsIn f) :
    SlotSpec f where
  pos := hpos
  fixups := hfix
  windows := by simp [WindowsIn, h.windows]
  views := by simp [h.views]
  chain := Or.inl h.chain

theorem slotSpec_boundarySlot (kind : AotFixupKind) (record : AotInstructionRecord)
    (hkind : kind = .kHleBoundary ∨ kind = .kIndirectExit) : SlotSpec (boundarySlot kind record) := by
  refine Plain.slotSpec ⟨rfl, rfl, rfl⟩ (by simp [boundarySlot]) (fixupsIn_single rfl ?_ ?_)
  · rw [fixupWidth_external]
    · simp [boundarySlot]
    · rcases hkind with rfl | rfl <;> simp [isExternalFixup]
  · rcases hkind with rfl | rfl <;> simp [isExternalFixup]

theorem slotSpec_ofBytes {bytes : List Byte} (h : bytes ≠ []) : SlotSpec (Fragment.ofBytes bytes) :=
  Plain.slotSpec ⟨rfl, rfl, rfl⟩ (List.length_pos_iff.mpr h) (fixupsIn_nil rfl)

theorem slotSpec_emitDirectCall (record : AotInstructionRecord) : SlotSpec (emitDirectCall record) := by
  refine Plain.slotSpec ⟨rfl, rfl, rfl⟩ (by simp [emitDirectCall]) (fixupsIn_single rfl ?_ ?_)
  · have := fixupWidth_le (emitDirectCall record).bytes
      (edgeFixup .kDirectCall record record.directTarget 6)
    simp only [edgeFixup, emitDirectCall, appendRel32, List.length_append, List.length_cons,
      le32_length] at this ⊢
    omega
  · simp [edgeFixup]

theorem slotSpec_emitHleDispatchSlot (record : AotInstructionRecord) :
    SlotSpec (emitHleDispatchSlot record) where
  pos := by simp [emitHleDispatchSlot]
  fixups := by
    refine fixupsIn_single rfl ?_ ?_
    · rw [fixupWidth_external]
      · simp [emitHleDispatchSlot, edgeFixup]
      · simp [isExternalFixup, edgeFixup]
    · simp [edgeFixup]
  windows := by
    intro w hw
    simp [emitHleDispatchSlot, Fragment.placementWindows] at hw ⊢
    rcases hw with rfl | rfl <;> simp
  views := by simp [emitHleDispatchSlot, Fragment.segmentViews]
  chain := Or.inl rfl

/-! ## Branches -/

theorem gapSpec_emitTimerSafePoint (record : AotInstructionRecord) (longMode : Bool) :
    GapSpec (emitTimerSafePoint record longMode) where
  fixups := fixupsIn_nil rfl
  windows := by
    intro w hw
    cases longMode <;>
      simp only [emitTimerSafePoint, Fragment.placementWindows] at hw ⊢ <;>
      simp at hw ⊢ <;> subst hw <;> simp
  no_views := rfl
  no_chain := rfl

theorem gapSpec_safePointIf (plant : Bool) (record : AotInstructionRecord) (longMode : Bool) :
    GapSpec (safePointIf plant record longMode) := by
  unfold safePointIf
  split_ifs
  · exact gapSpec_emitTimerSafePoint record longMode
  · exact gapSpec_empty

theorem gapSpec_emitJump (record : AotInstructionRecord) : GapSpec (emitJump record) where
  fixups := by
    refine fixupsIn_single rfl ?_ (by simp [edgeFixup])
    simp [fixupWidth, isExternalFixup, edgeFixup, emitJump, appendRel32]
  windows := by simp [WindowsIn, Fragment.placementWindows, emitJump]
  no_views := rfl
  no_chain := rfl

theorem slotSpec_emitDirectJump (safePoints : Bool) (record : AotInstructionRecord) :
    SlotSpec (emitDirectJump safePoints record) := by
  refine ((gapSpec_safePointIf _ record false).append (gapSpec_emitJump record)).slotSpec ?_
  simp [emitJump, appendRel32]

/-- The two jumps of a conditional branch. -/
theorem gapSpec_conditionalJumps (record : AotInstructionRecord) (opcode : Byte) :
    GapSpec
      { bytes := 0x0F :: appendRel32 opcode ++ appendRel32 0xE9
        fixups := [edgeFixup .kConditionalBranch record record.directTarget 2,
          edgeFixup .kDirectJump record record.fallthroughTarget 7] } where
  fixups := by
    refine ⟨?_, ?_, ?_⟩
    · intro x hx
      simp only [List.mem_cons, List.not_mem_nil, or_false] at hx
      rcases hx with rfl | rfl <;>
        simp [fixupWidth, isExternalFixup, edgeFixup, appendRel32, le32]
    · intro x hx
      simp only [List.mem_cons, List.not_mem_nil, or_false] at hx
      rcases hx with rfl | rfl <;> simp [edgeFixup]
    · simp [fixupWidth, isExternalFixup, edgeFixup, appendRel32, le32]
  windows := by simp [WindowsIn, Fragment.placementWindows]
  no_views := rfl
  no_chain := rfl

theorem slotSpec_emitConditionalBranch (safePoints : Bool) (record : AotInstructionRecord) :
    SlotSpec (emitConditionalBranch safePoints record) := by
  unfold emitConditionalBranch
  cases readConditionOpcode record.mnemonic with
  | none =>
    refine Plain.slotSpec ⟨rfl, rfl, rfl⟩ (by simp) (fixupsIn_single rfl ?_ ?_)
    · simp [fixupWidth, isExternalFixup, edgeFixup]
    · simp [isExternalFixup, edgeFixup]
  | some opcode =>
    refine ((gapSpec_safePointIf _ record false).append
      (gapSpec_conditionalJumps record opcode)).slotSpec ?_
    simp

/-! ## Inline caches -/

theorem getD_append_add {bytes rest : List Byte} (j : ℕ) :
    (bytes ++ rest).getD (bytes.length + j) 0 = rest.getD j 0 := by
  rw [List.getD_append_right _ _ _ _ (Nat.le_add_right _ _), Nat.add_sub_cancel_left]

/-- Blocks of one length are found by their index. -/
theorem getD_flatMap_range {f : ℕ → List Byte} {stride : ℕ} (hf : ∀ k, (f k).length = stride)
    {n k j : ℕ} (hk : k < n) (hj : j < stride) :
    ((List.range n).flatMap f).getD (k * stride + j) 0 = (f k).getD j 0 := by
  induction n with
  | zero => omega
  | succ n ih =>
    have hlen : ((List.range n).flatMap f).length = n * stride := by
      simp [List.length_flatMap, hf]
    rw [List.range_succ, List.flatMap_append, List.flatMap_singleton]
    by_cases hkn : k = n
    · subst hkn
      rw [← hlen]
      exact getD_append_add j
    · have hlt : k < n := by omega
      have hin : k * stride + j < ((List.range n).flatMap f).length := by
        have : (k + 1) * stride ≤ n * stride := Nat.mul_le_mul_right _ hlt
        rw [hlen]
        rw [Nat.add_mul] at this
        omega
      rw [List.getD_append _ _ _ _ hin]
      exact ih hlt

theorem inlineCacheEntryBytes_length (compare tail : List Byte) (d : Word) :
    (inlineCacheEntryBytes compare tail d).length = inlineCacheStride compare.length tail.length := by
  simp only [inlineCacheEntryBytes, inlineCacheStride, appendRel32, List.length_append,
    List.length_cons, le32_length, List.length_nil]

theorem inlineCacheChain_length (compare tail : List Byte) (count target : ℕ) :
    (inlineCacheChain compare tail count target).length =
      count * inlineCacheStride compare.length tail.length := by
  simp [inlineCacheChain, List.length_flatMap, inlineCacheEntryBytes_length]

theorem guardsAt_range' (c t k n : ℕ) (hc : 2 ≤ c) :
    GuardsAt (1 + k * inlineCacheStride c t) ((List.range' k n).map (inlineCacheEntryAt c t))
      (1 + (k + n) * inlineCacheStride c t) := by
  induction n generalizing k with
  | zero => rfl
  | succ n ih =>
    have hnext := ih (k + 1)
    rw [show k + 1 + n = k + (n + 1) by omega, Nat.add_mul k 1] at hnext
    refine ⟨rfl, ?_, rfl, ?_, ?_⟩
    · simp only [inlineCacheEntryAt]
      omega
    · simp only [inlineCacheEntryAt]
      omega
    · convert hnext using 1
      simp only [inlineCacheEntryAt, inlineCacheStride]
      omega

theorem guardsAt_range (c t n : ℕ) (hc : 2 ≤ c) :
    GuardsAt 1 ((List.range n).map (inlineCacheEntryAt c t)) (1 + n * inlineCacheStride c t) := by
  have := guardsAt_range' c t 0 n hc
  simpa [List.range_eq_range'] using this

/-- The bytes of one guard, by their place in it. -/
theorem inlineCacheEntryBytes_getD (compare tail : List Byte) (d : Word)
    (hne : compare ≠ []) :
    let bytes := inlineCacheEntryBytes compare tail d
    let guard := compare.length + 4
    bytes.getD 0 0 = compare.headD 0 ∧ bytes.getD guard 0 = 0xE9 ∧
      bytes.getD (guard + 1) 0 = d.extractLsb' 0 8 ∧ bytes.getD (guard + 2) 0 = d.extractLsb' 8 8 ∧
      bytes.getD (guard + 3) 0 = d.extractLsb' 16 8 ∧ bytes.getD (guard + 4) 0 = d.extractLsb' 24 8 ∧
      bytes.getD (guard + 6) 0 = 0x9D ∧ bytes.getD (guard + 7 + tail.length) 0 = 0xE9 := by
  intro bytes guard
  have hsplit : bytes = compare ++ (le32 0 ++ 0xE9 :: le32 d ++ [0x90, 0x9D] ++ (tail ++ appendRel32 0xE9)) := by
    simp only [bytes, inlineCacheEntryBytes, List.append_assoc, List.cons_append]
  have hat : ∀ j, bytes.getD (compare.length + j) 0 =
      (le32 0 ++ 0xE9 :: le32 d ++ [0x90, 0x9D] ++ (tail ++ appendRel32 0xE9)).getD j 0 := by
    intro j
    rw [hsplit]
    exact getD_append_add j
  refine ⟨?_, hat 4, hat 5, hat 6, hat 7, hat 8, hat 10, ?_⟩
  · obtain ⟨b, rest, rfl⟩ := List.exists_cons_of_ne_nil hne
    rfl
  · have hpos : guard + 7 + tail.length = compare.length + (11 + tail.length) := by
      simp only [guard]
      omega
    rw [hpos, hat]
    have hlen : (le32 0 ++ 0xE9 :: le32 d ++ [0x90, 0x9D]).length = 11 := rfl
    rw [← hlen, getD_append_add, ← Nat.add_zero tail.length, getD_append_add]
    rfl

/-- The chain of a slot is fresh. -/
theorem chainFresh_slot {compare tail rest : List Byte} {count : ℕ} {site : AotIndirectInlineCacheSite}
    (hhead : compare.headD 0 = 0x81) (hne : compare ≠ [])
    (hentries : site.entries = (List.range count).map (inlineCacheEntryAt compare.length tail.length))
    (htarget : aotInlineCacheGuardTargetOffset site =
      1 + count * inlineCacheStride compare.length tail.length) :
    ChainFresh (ofBytes (0x9C :: inlineCacheChain compare tail count
      (1 + count * inlineCacheStride compare.length tail.length) ++ rest)) site := by
  set stride := inlineCacheStride compare.length tail.length with hstride
  set target := 1 + count * stride with htgt
  intro g hg
  rw [hentries] at hg
  obtain ⟨k, hk, rfl⟩ := List.mem_map.mp hg
  have hk : k < count := List.mem_range.mp hk
  set d := rel32 ((inlineCacheEntryAt compare.length tail.length k).guardOffset + 1) target with hd
  -- a byte of the slot is a byte of the guard it falls into
  have hbyte : ∀ j, j < stride →
      ofBytes (0x9C :: inlineCacheChain compare tail count target ++ rest) (1 + k * stride + j) =
        (inlineCacheEntryBytes compare tail d).getD j 0 := by
    intro j hj
    have hlt : k * stride + j < (inlineCacheChain compare tail count target).length := by
      have : (k + 1) * stride ≤ count * stride := Nat.mul_le_mul_right _ hk
      rw [Nat.add_mul] at this
      rw [inlineCacheChain_length, ← hstride]
      omega
    rw [ofBytes, Nat.add_assoc, Nat.add_comm 1, List.cons_append, List.getD_cons_succ,
      List.getD_append _ _ _ _ hlt]
    exact getD_flatMap_range (fun _ => inlineCacheEntryBytes_length compare tail _) hk hj
  have hbound : compare.length + 4 + 12 + tail.length = stride := by
    simp only [hstride, inlineCacheStride]
    omega
  obtain ⟨h0, h4, h5, h6, h7, h8, h10, hj⟩ := inlineCacheEntryBytes_getD compare tail d hne
  rw [htarget]
  refine ⟨?_, ?_, ?_, ?_, ?_⟩
  · have := hbyte 0 (by omega)
    rw [h0, hhead] at this
    exact this
  · have := hbyte (compare.length + 4) (by omega)
    rw [h4] at this
    exact this
  · have e5 := hbyte (compare.length + 5) (by omega)
    have e6 := hbyte (compare.length + 6) (by omega)
    have e7 := hbyte (compare.length + 7) (by omega)
    have e8 := hbyte (compare.length + 8) (by omega)
    rw [h5] at e5
    rw [h6] at e6
    rw [h7] at e7
    rw [h8] at e8
    simp only [Memory.get32, inlineCacheEntryAt]
    calc
      _ = word32 (d.extractLsb' 0 8) (d.extractLsb' 8 8) (d.extractLsb' 16 8) (d.extractLsb' 24 8) := by
        rw [← e5, ← e6, ← e7, ← e8]
        rfl
      _ = d := word32_le32 d
  · have := hbyte (compare.length + 10) (by omega)
    rw [h10] at this
    exact this
  · have := hbyte (compare.length + 4 + 7 + tail.length) (by omega)
    rw [hj] at this
    have hpos : (inlineCacheEntryAt compare.length tail.length k).jumpDisplacementOffset - 1 =
        1 + k * stride + (compare.length + 4 + 7 + tail.length) := by
      simp only [inlineCacheEntryAt, ← hstride]
      omega
    rw [hpos]
    exact this

theorem indirectCompare_spec {modrm : Byte} {rest compare : List Byte}
    (h : indirectCompare modrm rest = some compare) :
    compare.headD 0 = 0x81 ∧ 2 ≤ compare.length ∧ compare.length ≤ 7 := by
  unfold indirectCompare at h
  simp only at h
  split_ifs at h
  all_goals
    simp only [Option.some.injEq, ne_eq, not_not, List.length_tail] at *
    subst h
    simp only [List.length_cons, List.length_append, le32_length, List.length_nil, List.length_tail]
    refine ⟨rfl, ?_, ?_⟩ <;> omega

/-- A slot with a guard chain and a miss tail behind it. -/
theorem slotSpec_chain {f : Fragment} (compare tail rest : List Byte) (count : ℕ)
    (site : AotIndirectInlineCacheSite)
    (hsites : f.indirectInlineCacheSites = [site])
    (hbytes : f.bytes = 0x9C :: inlineCacheChain compare tail count
      (1 + count * inlineCacheStride compare.length tail.length) ++ rest)
    (hhead : compare.headD 0 = 0x81) (hlen : 2 ≤ compare.length) (hcount : 0 < count)
    (hstart : site.cacheOffset = 0)
    (hfirst : site.targetImmediateOffset = 1 + compare.length ∧
      site.guardOffset = 1 + compare.length + 4 ∧
      site.jumpDisplacementOffset = 1 + compare.length + 4 + 6 + 1 + tail.length + 1)
    (hentries : site.entries = (List.range count).map (inlineCacheEntryAt compare.length tail.length))
    (htarget : aotInlineCacheGuardTargetOffset site =
      1 + count * inlineCacheStride compare.length tail.length)
    (hmiss : aotInlineCacheGuardTargetOffset site ≤ site.missCacheOffset ∧
      site.missCacheOffset + 1 < f.bytes.length)
    (hshort : f.bytes.length ≤ 255) (hfix : f.fixups = []) (hviews : f.segmentViews = [])
    (hwindows : ∀ w ∈ f.placementWindows,
      aotInlineCacheGuardTargetOffset site ≤ w.1 ∧ w.1 + w.2 ≤ f.bytes.length) : SlotSpec f := by
  have hstride : inlineCacheStride compare.length tail.length ≤
      count * inlineCacheStride compare.length tail.length := Nat.le_mul_of_pos_left _ hcount
  have htotal : 1 + count * inlineCacheStride compare.length tail.length ≤ f.bytes.length := by omega
  refine ⟨by omega, fixupsIn_nil hfix, ?_, by simp [hviews], Or.inr ⟨site, hsites, ?_⟩⟩
  · intro w hw
    have := hwindows w hw
    omega
  · refine ⟨⟨hstart, ?_, ?_, ?_, ?_, ?_, hmiss.1, hmiss.2, by omega⟩, ?_, hfix, hviews,
      fun w hw => (hwindows w hw).1⟩
    · rw [hentries]
      simp only [ne_eq, List.map_eq_nil_iff, List.range_eq_nil]
      omega
    · simp only [inlineCacheStride] at hstride htotal
      omega
    · simp only [inlineCacheStride] at hstride htotal
      omega
    · simp only [inlineCacheStride] at hstride htotal
      omega
    · rw [hentries, htarget]
      exact guardsAt_range _ _ _ hlen
    · rw [hbytes]
      refine chainFresh_slot hhead ?_ hentries htarget
      rintro rfl
      simp at hlen

theorem slotSpec_emitIndirectInlineCacheSlot {record : AotInstructionRecord} {count : ℕ} {f : Fragment}
    (h : emitIndirectInlineCacheSlot record count = some f) : SlotSpec f ∧ f.bytes.length ≤ 255 := by
  unfold emitIndirectInlineCacheSlot at h
  split at h
  swap
  · contradiction
  rename_i modrm rest _
  simp only at h
  split_ifs at h with hguard
  simp only [not_or] at hguard
  cases hcmp : indirectCompare modrm rest with
  | none => simp [hcmp] at h
  | some compare =>
    simp only [hcmp, Option.some.injEq] at h
    subst h
    obtain ⟨hhead, hlo, hhi⟩ := indirectCompare_spec hcmp
    set isCall : Bool := decide (regField modrm = 2)
    have htail : (indirectTail record isCall).length ≤ 5 := by
      unfold indirectTail
      split_ifs <;> simp
    have hcount : count ≤ 4 := by
      have := hguard.2.1
      simp only [kInlineCacheEntryCount] at this
      omega
    have hstride : count * inlineCacheStride compare.length (indirectTail record isCall).length ≤
        4 * 28 := by
      refine Nat.mul_le_mul hcount ?_
      simp only [inlineCacheStride]
      omega
    have hshort : (0x9C :: inlineCacheChain compare (indirectTail record isCall) count
        (1 + count * inlineCacheStride compare.length (indirectTail record isCall).length) ++
          [0x9D, 0xCC]).length ≤ 255 := by
      simp only [List.length_append, List.length_cons, inlineCacheChain_length, List.length_nil]
      omega
    refine ⟨slotSpec_chain compare (indirectTail record isCall) [0x9D, 0xCC] count _ rfl rfl hhead hlo
      (by omega) rfl ?_ rfl ?_ ?_ hshort rfl rfl ?_, hshort⟩
    · simp [inlineCacheSite, inlineCacheEntryAt]
    · simp [aotInlineCacheGuardTargetOffset, inlineCacheSite]
    · simp only [aotInlineCacheGuardTargetOffset, inlineCacheSite, List.length_append, List.length_cons,
        inlineCacheChain_length, List.length_nil]
      simp
      omega
    · simp [Fragment.placementWindows]

theorem returnMissTail_length (record : AotInstructionRecord) (dispatch : Bool) (popBytes : ℕ) :
    2 ≤ (returnMissTail record dispatch popBytes).bytes.length ∧
      (returnMissTail record dispatch popBytes).bytes.length ≤ 24 := by
  unfold returnMissTail
  split_ifs <;> simp

theorem returnMissTail_windows (record : AotInstructionRecord) (dispatch : Bool) (popBytes : ℕ) :
    ∀ w ∈ (returnMissTail record dispatch popBytes).placementWindows,
      w.1 + w.2 ≤ (returnMissTail record dispatch popBytes).bytes.length := by
  unfold returnMissTail
  split_ifs
  · intro w hw
    simp [Fragment.placementWindows] at hw ⊢
    rcases hw with rfl | rfl <;> simp
  · simp [Fragment.placementWindows]

theorem emitAotDirectReturnProbe_spec {source : Word} {popBytes : ℕ} {f : Fragment}
    (h : emitAotDirectReturnProbe source popBytes = some f) :
    f.bytes.length ≤ 60 ∧ f.fixups = [] ∧ f.segmentViews = [] ∧ f.indirectInlineCacheSites = [] ∧
      ∀ w ∈ f.placementWindows, w.1 + w.2 ≤ f.bytes.length := by
  unfold emitAotDirectReturnProbe at h
  simp only at h
  split_ifs at h with _ hfour
  all_goals
    simp only [Option.some.injEq] at h
    subst h
    refine ⟨by simp, rfl, rfl, rfl, ?_⟩
    intro w hw
    simp [Fragment.placementWindows] at hw ⊢
    rcases hw with rfl | rfl | rfl | rfl <;> simp

theorem slotSpec_returnSlot (record : AotInstructionRecord) (dispatch : Bool) (popBytes : ℕ)
    {probe : Option Fragment} (hprobe : ∀ g, probe = some g →
      g.bytes.length ≤ 60 ∧ g.fixups = [] ∧ g.segmentViews = [] ∧ g.indirectInlineCacheSites = [] ∧
        ∀ w ∈ g.placementWindows, w.1 + w.2 ≤ g.bytes.length) :
    SlotSpec (returnSlot record dispatch popBytes probe) ∧
      (returnSlot record dispatch popBytes probe).bytes.length ≤ 255 := by
  have hspec : (probe.getD {}).bytes.length ≤ 60 ∧ (probe.getD {}).fixups = [] ∧
      (probe.getD {}).segmentViews = [] ∧ (probe.getD {}).indirectInlineCacheSites = [] ∧
      ∀ w ∈ (probe.getD {}).placementWindows, w.1 + w.2 ≤ (probe.getD {}).bytes.length := by
    cases hcase : probe with
    | none => exact ⟨by simp, rfl, rfl, rfl, by simp [Fragment.placementWindows]⟩
    | some g => exact hprobe g hcase
  set probeSlot := probe.getD {} with hslot
  obtain ⟨hplen, hpfix, hpviews, hpchain, hpwin⟩ := hspec
  set tail := returnTail popBytes with htail
  set chainEnd := 1 + kInlineCacheEntryCount * inlineCacheStride returnCompare.length tail.length
    with hend
  set site := inlineCacheSite record returnCompare.length tail.length kInlineCacheEntryCount
    (chainEnd + probeSlot.bytes.length) (if probe.isSome then chainEnd else 0) false true with hsite
  have htarget : aotInlineCacheGuardTargetOffset site = chainEnd := by
    cases hcase : probe with
    | none => simp [hsite, hslot, hcase, aotInlineCacheGuardTargetOffset, inlineCacheSite]
    | some g =>
      have : chainEnd ≠ 0 := by omega
      simp [hsite, hcase, aotInlineCacheGuardTargetOffset, inlineCacheSite, this]
  set chain : Fragment :=
    { bytes := 0x9C :: inlineCacheChain returnCompare tail kInlineCacheEntryCount chainEnd
      indirectInlineCacheSites := [site] } with hchain
  have heq : returnSlot record dispatch popBytes probe =
      (chain.append probeSlot).append (returnMissTail record dispatch popBytes) := by
    simp only [returnSlot, ← htail, ← hslot, ← hend, ← hsite, htarget, hchain]
  rw [heq]
  have htlen : tail.length ≤ 7 := by
    rw [htail]
    unfold returnTail
    split_ifs <;> simp
  have hclen : chain.bytes.length = chainEnd := by
    simp only [hchain, List.length_cons, inlineCacheChain_length, hend]
    omega
  have hcend : chainEnd ≤ 1 + 4 * 27 := by
    simp only [hend, kInlineCacheEntryCount, inlineCacheStride, returnCompare, List.length_cons,
      List.length_nil]
    omega
  have hmiss := returnMissTail_length record dispatch popBytes
  have hwmiss := returnMissTail_windows record dispatch popBytes
  set miss := returnMissTail record dispatch popBytes with hmissdef
  have hmfix : miss.fixups = [] ∧ miss.segmentViews = [] ∧ miss.indirectInlineCacheSites = [] := by
    rw [hmissdef]
    unfold returnMissTail
    split_ifs <;> exact ⟨rfl, rfl, rfl⟩
  have hlen : ((chain.append probeSlot).append miss).bytes.length =
      chainEnd + probeSlot.bytes.length + miss.bytes.length := by
    simp only [Fragment.append_bytes_length, hclen]
  have hshort : ((chain.append probeSlot).append miss).bytes.length ≤ 255 := by omega
  refine ⟨?_, hshort⟩
  refine slotSpec_chain returnCompare tail (probeSlot.bytes ++ miss.bytes) kInlineCacheEntryCount site
    ?_ ?_ rfl (by simp [returnCompare]) (by simp [kInlineCacheEntryCount]) rfl ?_ rfl htarget ?_
    hshort ?_ ?_ ?_
  · simp only [Fragment.append, hpchain, hmfix.2.2, hchain, List.map_nil, List.append_nil]
  · simp only [Fragment.append_bytes, hchain, List.append_assoc, ← hend]
  · simp [hsite, inlineCacheSite, inlineCacheEntryAt]
  · rw [hlen, htarget]
    have hm : site.missCacheOffset = chainEnd + probeSlot.bytes.length := rfl
    rw [hm]
    omega
  · simp only [Fragment.append, hpfix, hmfix.1, hchain, List.map_nil, List.append_nil]
  · refine List.eq_nil_iff_forall_not_mem.mpr ?_
    intro v hv
    rcases Fragment.mem_segmentViews_append (by simp [hmfix.2.1]) hv with hv | ⟨v', hv, -⟩
    · rcases Fragment.mem_segmentViews_append (by simp [hpviews]) hv with hv | ⟨v', hv, -⟩
      · simp [hchain, Fragment.segmentViews] at hv
      · simp [hpviews] at hv
    · simp [hmfix.2.1] at hv
  · intro w hw
    rw [hlen, htarget]
    rcases Fragment.mem_placementWindows_append hw with hw | ⟨w', hw', rfl⟩
    · rcases Fragment.mem_placementWindows_append hw with hw | ⟨w', hw', rfl⟩
      · simp [hchain, Fragment.placementWindows] at hw
      · have := hpwin w' hw'
        simp only [moveWindow, hclen]
        omega
    · have := hwmiss w' hw'
      simp only [moveWindow, Fragment.append_bytes_length, hclen]
      omega

theorem slotSpec_emitReturnInlineCacheSlot {record : AotInstructionRecord}
    {dispatch directReturnTable : Bool} {f : Fragment}
    (h : emitReturnInlineCacheSlot record dispatch directReturnTable = some f) :
    SlotSpec f ∧ f.bytes.length ≤ 255 := by
  unfold emitReturnInlineCacheSlot at h
  cases hpop : returnPopBytes record.bytes with
  | none => simp [hpop] at h
  | some popBytes =>
    simp only [hpop] at h
    by_cases hfits : dispatch ∧ 0xFFFF < popBytes
    · simp [hfits] at h
    · rw [if_neg hfits, Option.some.injEq] at h
      subst h
      refine slotSpec_returnSlot record dispatch popBytes ?_
      intro g hg
      split_ifs at hg with hboth
      exact emitAotDirectReturnProbe_spec hg

theorem slotSpec_emitJumpTableSlot {record : AotInstructionRecord} {f : Fragment}
    (h : emitJumpTableSlot record = some f) : SlotSpec f ∧ f.bytes.length ≤ 255 := by
  unfold emitJumpTableSlot at h
  simp only at h
  split_ifs at h with hguard
  simp only [not_or, Option.some.injEq] at h hguard
  subst h
  refine ⟨⟨?_, fixupsIn_nil rfl, ?_, by simp [Fragment.segmentViews], Or.inl rfl⟩, ?_⟩
  · simp
  · intro w hw
    simp [Fragment.placementWindows] at hw ⊢
    rcases hw with rfl | rfl
    · simp
    · simp only
      omega
  · simp
    omega

/-! ## Segment slots -/

theorem recordGuardPrologue_length (slot : List Byte) : (recordGuardPrologue slot).length ≤ slot.length := by
  simp only [recordGuardPrologue, List.length_take]
  omega

/-- A slot with a segment site at its start, and nothing else that is patched. -/
theorem slotSpec_segment {f : Fragment} {v : PatchView} (hpos : 0 < f.bytes.length) (hfixups : FixupsIn f)
    (hplacements : f.placementWindows = []) (hchains : f.indirectInlineCacheSites = []) (hviews : f.segmentViews = [v])
    (hstart : v.start = 0) (hopening : v.opening = (recordGuardPrologue f.bytes).length)
    (hwindows : ∀ w ∈ v.windows, 0 < w.1 ∧ w.1 + w.2 ≤ f.bytes.length) : SlotSpec f where
  pos := hpos
  fixups := hfixups
  windows := by
    rw [WindowsIn, hplacements]
    exact List.forall_mem_nil _
  views := by
    rw [hviews, List.forall_mem_singleton]
    refine ⟨hstart, ?_, hwindows⟩
    rw [Nat.zero_add, hopening]
    exact recordGuardPrologue_length _
  chain := Or.inl hchains

theorem segmentOverrideAccess_spec {bytes : List Byte} {i : Instruction} {index : ℕ}
    {access : List Byte} {offset : ℕ} (h : segmentOverrideAccess bytes i index = some (access, offset)) :
    offset + 4 ≤ access.length ∧ access.length ≤ 3 * bytes.length + 6 := by
  unfold segmentOverrideAccess at h
  simp only at h
  have herase := List.length_eraseIdx_le (bytes.take i.prefixCount) index
  split_ifs at h
  all_goals
    simp only [Option.some.injEq, Prod.mk.injEq] at h
    obtain ⟨rfl, rfl⟩ := h
    simp only [List.length_append, List.length_take, List.length_drop, List.length_cons,
      List.length_nil, le32_length] at herase ⊢
    omega

theorem slotSpec_segmentOverrideSlot (record : AotInstructionRecord) (i : Instruction)
    {access : List Byte} {offset : ℕ} (hoffset : offset + 4 ≤ access.length) :
    SlotSpec (segmentOverrideSlot record i access offset) := by
  refine slotSpec_segment (by simp [segmentOverrideSlot]) ?_ rfl rfl rfl rfl rfl ?_
  · refine fixupsIn_single rfl ?_ (by simp [edgeFixup])
    simp [fixupWidth, isExternalFixup, edgeFixup, segmentOverrideSlot, appendRel32]
    omega
  · simp [AotSegmentOverrideSite.view, segmentOverrideSlot, appendRel32]
    omega

/-- What `EmitSegmentOverrideSlot` has checked where it emits a slot. -/
theorem emitSegmentOverrideSlot_eq_some {table : Table} {record : AotInstructionRecord} {f : Fragment}
    (h : emitSegmentOverrideSlot table record = some f) :
    ∃ segmentPrefix i access offset, segmentPrefixByte record.segmentOverrideRegister = some segmentPrefix ∧
      decode table .legacy32 record.bytes = some i ∧
      (¬(i.length ≠ record.bytes.length ∨ i.modrm = none ∨ i.modrmMod = 3) ∧
        (i.disp.length = 0 ∨ i.disp.length = 1 ∨ i.disp.length = 4) ∧
        (record.bytes.take i.prefixCount).findIdx (· = segmentPrefix) < i.prefixCount) ∧
      segmentOverrideAccess record.bytes i
        ((record.bytes.take i.prefixCount).findIdx (· = segmentPrefix)) = some (access, offset) ∧
      f = segmentOverrideSlot record i access offset := by
  unfold emitSegmentOverrideSlot at h
  simp only [Option.bind_eq_bind, Option.bind_eq_some_iff, Option.bind_none] at h
  obtain ⟨p, hp, i, hi, h⟩ := h
  split_ifs at h with hform hdisp hindex
  obtain ⟨⟨access, offset⟩, haccess, h⟩ := Option.bind_eq_some_iff.mp h
  simp only [Option.pure_def, Option.some.injEq] at h
  exact ⟨p, i, access, offset, hp, hi, ⟨hform, by omega, not_le.mp hindex⟩, haccess, h.symm⟩

theorem slotSpec_emitSegmentOverrideSlot {table : Table} {record : AotInstructionRecord} {f : Fragment}
    (h : emitSegmentOverrideSlot table record = some f) (hlen : record.bytes.length ≤ 15) :
    SlotSpec f ∧ f.bytes.length ≤ 255 := by
  obtain ⟨_, i, access, offset, -, -, -, haccess, rfl⟩ := emitSegmentOverrideSlot_eq_some h
  obtain ⟨hoffset, hbound⟩ := segmentOverrideAccess_spec haccess
  refine ⟨slotSpec_segmentOverrideSlot record i hoffset, ?_⟩
  simp only [segmentOverrideSlot, appendRel32, List.length_append, List.length_cons, le32_length,
    List.length_nil]
  omega

/-- Where the operands of a guarded slot lie. -/
structure BodyOffsets (body : GuardedSegmentBody) (s a : ℕ) : Prop where
  shadow : body.shadowAddressOffset = 5 + s
  pair0 : body.pair0AddressOffset = 14 + s
  pair1 : body.pair1AddressOffset = 23 + s
  store : body.shadowStoreOffset = 31 + s
  success : body.successCounterAddressOffset = 37 + s
  patch : body.patchOffset = 44 + s + a
  counter : body.fallbackCounterAddressOffset = 50 + s + a
  fallback : body.fallbackOffset = 56 + s + a
  length : body.bytes.length = 57 + s + a

theorem guardedSegmentBody_offsets (source : List Byte) (distance : Byte) (advance : List Byte) :
    BodyOffsets (guardedSegmentBody source distance advance) source.length advance.length := by
  refine ⟨?_, ?_, ?_, ?_, ?_, ?_, ?_, ?_, ?_⟩
  all_goals
    unfold guardedSegmentBody
    simp only [List.length_append, List.length_cons, List.length_nil, le32_length]
    omega

theorem BodyOffsets.windows_in {body : GuardedSegmentBody} {s a : ℕ} (h : BodyOffsets body s a) :
    ∀ w ∈ guardedWindows body.shadowAddressOffset body.pair0AddressOffset body.pair1AddressOffset
      body.shadowStoreOffset body.successCounterAddressOffset body.fallbackCounterAddressOffset true,
      0 < w.1 ∧ w.1 + w.2 ≤ body.bytes.length := by
  rw [h.shadow, h.pair0, h.pair1, h.store, h.success, h.counter, h.length]
  simp [guardedWindows]
  omega

/-- The jump of a guarded slot is its only fixup. -/
theorem BodyOffsets.fixupsIn {body : GuardedSegmentBody} {s a : ℕ} (h : BodyOffsets body s a)
    {f : Fragment} (hbytes : f.bytes = body.bytes) {record : AotInstructionRecord} {target : Word}
    (hfix : f.fixups = [edgeFixup .kBlockFallthrough record target body.patchOffset]) : FixupsIn f := by
  refine fixupsIn_single hfix ?_ fun _ => ?_
  · simp [edgeFixup, fixupWidth, isExternalFixup, hbytes, h.length, h.patch]
    omega
  · simp only [edgeFixup, h.patch]
    omega

theorem slotSpec_emitGuardedSegmentPopSlot {record : AotInstructionRecord} {f : Fragment}
    (h : emitGuardedSegmentPopSlot record = some f) : SlotSpec f ∧ f.bytes.length ≤ 255 := by
  unfold emitGuardedSegmentPopSlot at h
  have hoff := guardedSegmentBody_offsets [0x66, 0x8B, 0x44, 0x24, 0x08] 0x17 [0x8D, 0x64, 0x24, 0x04]
  generalize guardedSegmentBody [0x66, 0x8B, 0x44, 0x24, 0x08] 0x17 [0x8D, 0x64, 0x24, 0x04] = body at *
  split_ifs at h
  simp only [Option.some.injEq] at h
  subst h
  have hlen : body.bytes.length = 66 := hoff.length
  refine ⟨slotSpec_segment ?_ (hoff.fixupsIn rfl rfl) rfl rfl rfl rfl rfl hoff.windows_in, ?_⟩
  all_goals
    simp only
    omega

theorem encodeSegmentLoadMemorySource_length {bytes source : List Byte}
    (h : encodeSegmentLoadMemorySource bytes = some source) : source.length ≤ 8 := by
  unfold encodeSegmentLoadMemorySource at h
  split at h
  swap
  · contradiction
  simp only at h
  split_ifs at h
  all_goals
    simp only [Option.some.injEq] at h
    subst h
    simp
    try omega

theorem encodeGuardedSegmentLoadSource_length {record : AotInstructionRecord} {source : List Byte}
    (h : encodeGuardedSegmentLoadSource record = some source) : source.length ≤ 8 := by
  unfold encodeGuardedSegmentLoadSource at h
  split_ifs at h
  · simp only [Option.some.injEq] at h
    subst h
    simp
  · simp only [Option.some.injEq] at h
    subst h
    simp
  · exact encodeSegmentLoadMemorySource_length h

theorem slotSpec_emitGuardedSegmentLoadSlot {record : AotInstructionRecord} {f : Fragment}
    (h : emitGuardedSegmentLoadSlot record = some f) : SlotSpec f ∧ f.bytes.length ≤ 255 := by
  unfold emitGuardedSegmentLoadSlot at h
  split_ifs at h
  cases hsource : encodeGuardedSegmentLoadSource record with
  | none => simp [hsource] at h
  | some source =>
    simp only [hsource] at h
    have hoff := guardedSegmentBody_offsets source 0x13 []
    generalize guardedSegmentBody source 0x13 [] = body at *
    simp only [Option.some.injEq] at h
    subst h
    have hlen : body.bytes.length = 57 + source.length := hoff.length
    have hle := encodeGuardedSegmentLoadSource_length hsource
    refine ⟨slotSpec_segment ?_ (hoff.fixupsIn rfl rfl) rfl rfl rfl rfl rfl hoff.windows_in, ?_⟩
    all_goals
      simp only
      omega

theorem slotSpec_emitGuardedSegmentReadSlot {record : AotInstructionRecord} {f : Fragment}
    (h : emitGuardedSegmentReadSlot record = some f) : SlotSpec f ∧ f.bytes.length ≤ 255 := by
  unfold emitGuardedSegmentReadSlot at h
  split_ifs at h
  simp only [Option.some.injEq] at h
  subst h
  refine ⟨slotSpec_segment (by simp) ?_ rfl rfl rfl rfl rfl ?_, by simp [appendRel32]⟩
  · refine fixupsIn_single rfl ?_ (by simp [edgeFixup])
    simp [fixupWidth, isExternalFixup, edgeFixup, appendRel32]
  · simp [AotGuardedSegmentReadSite.view, appendRel32]

/-! ## The 32-bit back end -/

/-- What emission relies on in a record: an instruction has at most fifteen bytes, and only a
boundary has none. -/
structure RecordWF (record : AotInstructionRecord) : Prop where
  length_le : record.bytes.length ≤ 15
  bytes_ne : record.bytes = [] → record.kind = .kHleBoundary

theorem slotSpec_slotOr {kind : AotFixupKind} {record : AotInstructionRecord} {enabled : Bool}
    {slot : Option Fragment} (hkind : kind = .kHleBoundary ∨ kind = .kIndirectExit)
    (hslot : ∀ f, slot = some f → SlotSpec f ∧ f.bytes.length ≤ 255) :
    SlotSpec (slotOr kind record enabled slot) ∧
      (slotOr kind record enabled slot).bytes.length ≤ 255 := by
  have hboundary : SlotSpec (boundarySlot kind record) ∧ (boundarySlot kind record).bytes.length ≤ 255 :=
    ⟨slotSpec_boundarySlot kind record hkind, by simp [boundarySlot]⟩
  unfold slotOr
  split_ifs
  · cases hs : slot with
    | none => exact hboundary
    | some f => exact hslot f hs
  · exact hboundary

theorem slotSpec_emitLegacy (table : Table) (options : AotCodeCacheBuildOptions)
    {record : AotInstructionRecord} (hwf : RecordWF record) :
    SlotSpec (emitLegacy table options record) ∧ (emitLegacy table options record).bytes.length ≤ 255 := by
  have hcopy : record.kind ≠ .kHleBoundary → SlotSpec (Fragment.ofBytes record.bytes) ∧
      (Fragment.ofBytes record.bytes).bytes.length ≤ 255 := by
    intro hk
    refine ⟨slotSpec_ofBytes fun hnil => hk (hwf.bytes_ne hnil), ?_⟩
    have := hwf.length_le
    simp only [Fragment.ofBytes]
    omega
  have hsafe : ∀ plant, (safePointIf plant record).bytes.length ≤ 16 := by
    intro plant
    unfold safePointIf emitTimerSafePoint
    split_ifs <;> simp
  unfold emitLegacy
  cases hkind : record.kind with
  | kCopy =>
    simp only
    split_ifs
    · exact ⟨slotSpec_boundarySlot _ _ (Or.inl rfl), by simp [boundarySlot]⟩
    · exact hcopy (by simp [hkind])
  | kReturn =>
    exact slotSpec_slotOr (Or.inr rfl) fun f hf => slotSpec_emitReturnInlineCacheSlot hf
  | kFarReturn => exact ⟨slotSpec_boundarySlot _ _ (Or.inl rfl), by simp [boundarySlot]⟩
  | kDirectCall => exact ⟨slotSpec_emitDirectCall record, by simp [emitDirectCall, appendRel32]⟩
  | kDirectJump =>
    refine ⟨slotSpec_emitDirectJump _ record, ?_⟩
    have := hsafe (options.enableTimerSafePoints && isBackwardEdge record)
    simp only [emitDirectJump, Fragment.append_bytes_length, emitJump, appendRel32, List.length_cons,
      le32_length]
    omega
  | kConditionalBranch =>
    refine ⟨slotSpec_emitConditionalBranch _ record, ?_⟩
    have := hsafe (options.enableTimerSafePoints && isBackwardEdge record)
    unfold emitConditionalBranch
    cases readConditionOpcode record.mnemonic with
    | none => simp
    | some opcode =>
      simp only [Fragment.append_bytes_length, appendRel32, List.length_cons, List.length_append,
        le32_length]
      omega
  | kHleBoundary =>
    refine slotSpec_slotOr (Or.inl rfl) fun f hf => ?_
    rw [← Option.some.inj hf]
    exact ⟨slotSpec_emitHleDispatchSlot record, by simp [emitHleDispatchSlot]⟩
  | kPortIo =>
    refine slotSpec_slotOr (Or.inl rfl) fun f hf => ?_
    rw [← Option.some.inj hf]
    exact ⟨slotSpec_emitHleDispatchSlot record, by simp [emitHleDispatchSlot]⟩
  | kSegmentOverrideMem =>
    exact slotSpec_slotOr (Or.inl rfl) fun f hf => slotSpec_emitSegmentOverrideSlot hf hwf.length_le
  | kGuardedSegmentPop =>
    exact slotSpec_slotOr (Or.inl rfl) fun f hf => slotSpec_emitGuardedSegmentPopSlot hf
  | kGuardedSegmentLoad =>
    exact slotSpec_slotOr (Or.inl rfl) fun f hf => slotSpec_emitGuardedSegmentLoadSlot hf
  | kGuardedSegmentPush => exact hcopy (by simp [hkind])
  | kGuardedSegmentRead =>
    exact slotSpec_slotOr (Or.inl rfl) fun f hf => slotSpec_emitGuardedSegmentReadSlot hf
  | kIndirectExit =>
    exact slotSpec_slotOr (Or.inr rfl) fun f hf => slotSpec_emitIndirectInlineCacheSlot hf
  | kJumpTable =>
    exact slotSpec_slotOr (Or.inr rfl) fun f hf => slotSpec_emitJumpTableSlot hf

end Repiu.Runtime
