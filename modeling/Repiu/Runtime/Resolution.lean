import Repiu.Runtime.Emission

/-!
# Fixup resolution

Resolution fills in displacements and appends dispatch stubs.  It leaves the sites
where they are and does not touch a guard chain; what is left is `ImageSpec`, the
layout of a finished image.
-/

namespace Repiu.Runtime

open Repiu.X86

/-! ## Overwriting -/

theorem overwrite_length {bytes new : List Byte} {offset : ℕ} (h : offset + new.length ≤ bytes.length) :
    (overwrite bytes offset new).length = bytes.length := by
  simp only [overwrite, List.length_append, List.length_take, List.length_drop]
  omega

/-- An overwrite changes the bytes of its window only. -/
theorem overwrite_getD {bytes new : List Byte} {offset a : ℕ} (h : offset + new.length ≤ bytes.length)
    (ha : a < offset ∨ offset + new.length ≤ a) :
    (overwrite bytes offset new).getD a 0 = bytes.getD a 0 := by
  have htake : (bytes.take offset).length = offset := by
    rw [List.length_take]
    omega
  unfold overwrite
  rcases ha with ha | ha
  · rw [List.append_assoc, List.getD_append _ _ _ _ (by omega)]
    simp only [List.getD_eq_getElem?_getD, List.getElem?_take_of_lt ha]
  · have hlen : (bytes.take offset ++ new).length = offset + new.length := by
      rw [List.length_append, htake]
    rw [List.getD_append_right _ _ _ _ (by omega), hlen]
    simp only [List.getD_eq_getElem?_getD, List.getElem?_drop]
    congr 2
    omega

theorem patchRel32_spec {bytes bytes' : List Byte} {patch target : ℕ}
    (h : patchRel32 bytes patch target = some bytes') :
    patch + 4 ≤ bytes.length ∧ bytes' = overwrite bytes patch (le32 (rel32 patch target)) := by
  unfold patchRel32 at h
  simp only at h
  split_ifs at h with hbad
  rw [not_or, Nat.not_lt] at hbad
  exact ⟨hbad.1, (Option.some.inj h).symm⟩

/-! ## The structure -/

/-- What resolution keeps of the code it started from. -/
structure Keeps (c s : Fragment) : Prop where
  views : s.segmentViews = c.segmentViews
  overrides : s.segmentOverrideSites = c.segmentOverrideSites
  guarded : s.guardedStarts = c.guardedStarts
  chains : s.indirectInlineCacheSites = c.indirectInlineCacheSites
  length : c.bytes.length ≤ s.bytes.length
  windows : ∀ w ∈ s.placementWindows, w ∈ c.placementWindows ∨
    (c.bytes.length ≤ w.1 ∧ w.1 + w.2 ≤ s.bytes.length)

theorem Keeps.refl (c : Fragment) : Keeps c c :=
  ⟨rfl, rfl, rfl, rfl, le_rfl, fun _ hw => Or.inl hw⟩

/-- Other bytes and other fixups. -/
theorem Keeps.rewrite {c s : Fragment} (h : Keeps c s) {bytes : List Byte} (fixups : List AotCodeCacheFixup)
    (hlen : bytes.length = s.bytes.length) : Keeps c { s with bytes := bytes, fixups := fixups } where
  views := h.views
  overrides := h.overrides
  guarded := h.guarded
  chains := h.chains
  length := by
    have := h.length
    simp only
    omega
  windows := by
    intro w hw
    rcases h.windows w hw with hw | hw
    · exact Or.inl hw
    · exact Or.inr ⟨hw.1, hw.2.trans hlen.ge⟩

theorem Keeps.stub {c s : Fragment} (h : Keeps c s) (fixup : AotCodeCacheFixup) :
    Keeps c (s.append (directEdgeDispatchStub fixup)) where
  views := by
    rw [← h.views]
    simp [Fragment.segmentViews, Fragment.append, directEdgeDispatchStub]
  overrides := by
    rw [← h.overrides]
    simp [Fragment.append, directEdgeDispatchStub]
  guarded := by
    rw [← h.guarded]
    simp [Fragment.guardedStarts, Fragment.append, directEdgeDispatchStub]
  chains := by
    rw [← h.chains]
    simp [Fragment.append, directEdgeDispatchStub]
  length := by
    have := h.length
    rw [Fragment.append_bytes_length]
    omega
  windows := by
    intro w hw
    rw [Fragment.append_bytes_length]
    rcases Fragment.mem_placementWindows_append hw with hw | ⟨w', hw', rfl⟩
    · rcases h.windows w hw with hw | hw
      · exact Or.inl hw
      · exact Or.inr ⟨hw.1, hw.2.trans (Nat.le_add_right _ _)⟩
    · refine Or.inr ?_
      have := h.length
      simp [directEdgeDispatchStub, Fragment.placementWindows] at hw' ⊢
      rcases hw' with rfl | rfl <;> simp only [moveWindow] <;> omega

theorem neutraliseEntry_length {bytes bytes' : List Byte} {fixup : AotCodeCacheFixup}
    {map : List AotAddressMapEntry} {counts counts' : List ℕ}
    (h : neutraliseEntry bytes fixup map counts = some (bytes', counts')) :
    bytes'.length = bytes.length := by
  induction map generalizing counts counts' with
  | nil => simp [neutraliseEntry] at h
  | cons e es ih =>
    cases counts with
    | nil => simp [neutraliseEntry] at h
    | cons n ns =>
      unfold neutraliseEntry at h
      split_ifs at h with hne hbad
      · obtain ⟨⟨b, cs⟩, hrec, heq⟩ := Option.map_eq_some_iff.mp h
        simp only [Prod.mk.injEq] at heq
        obtain ⟨rfl, -⟩ := heq
        exact ih hrec
      · simp only [Option.some.injEq, Prod.mk.injEq] at h
        rw [← h.1]
        refine overwrite_length ?_
        rw [List.length_replicate]
        omega

theorem neutraliseLongModeBranch_length {map : List AotAddressMapEntry} {fixup : AotCodeCacheFixup}
    {bytes bytes' : List Byte} {counts counts' : List ℕ}
    (h : neutraliseLongModeBranch map fixup bytes counts = some (bytes', counts')) :
    bytes'.length = bytes.length := by
  unfold neutraliseLongModeBranch at h
  split at h
  · split_ifs at h with hbad
    simp only [Option.some.injEq, Prod.mk.injEq] at h
    rw [← h.1]
    rw [not_or, not_lt, not_not] at hbad
    refine overwrite_length ?_
    have := (List.getElem?_eq_some_iff.mp hbad.2).1
    rw [List.length_singleton]
    omega
  all_goals first
    | contradiction
    | (split_ifs at h
       exact neutraliseEntry_length h)

/-- What resolving a fixup can do to the code: the fixup is kept, and bytes are written in the code or in
the code with the stub of an edge that leaves the image. The 32-bit back end writes a displacement only. -/
theorem resolveFixup_cases {input : BuildInput} {map : List AotAddressMapEntry} {s s' : ResolveState}
    {fixup : AotCodeCacheFixup} (hstep : resolveFixup input map s fixup = some s') :
    ∃ (base : Fragment) (fixup' : AotCodeCacheFixup) (bytes : List Byte),
      (base = s.code ∨ base = s.code.append (directEdgeDispatchStub fixup)) ∧
      fixup'.cachePatchOffset = fixup.cachePatchOffset ∧ bytes.length = base.bytes.length ∧
      s'.code = { base with bytes := bytes, fixups := base.fixups ++ [fixup'] } ∧
      (input.options.enableLongModeEmission = false → ∀ a, (isExternalFixup s.code.bytes fixup = false →
        a < fixup.cachePatchOffset ∨ fixup.cachePatchOffset + 4 ≤ a) → bytes.getD a 0 = base.bytes.getD a 0) := by
  unfold resolveFixup at hstep
  split_ifs at hstep with hext
  · rw [← Option.some.inj hstep]
    exact ⟨_, fixup, _, Or.inl rfl, rfl, rfl, rfl, fun _ _ _ => rfl⟩
  rw [Bool.not_eq_true] at hext
  split at hstep
  · rename_i bytes hbytes
    obtain ⟨entry, -, hpatch⟩ := Option.bind_eq_some_iff.mp hbytes
    obtain ⟨hle, rfl⟩ := patchRel32_spec hpatch
    rw [← Option.some.inj hstep]
    refine ⟨_, { fixup with resolved := true }, _, Or.inl rfl, rfl, overwrite_length hle, rfl, fun _ a ha => ?_⟩
    exact overwrite_getD hle (ha hext)
  unfold resolveUnmapped at hstep
  split at hstep
  · rw [← Option.some.inj hstep]
    exact ⟨_, fixup, _, Or.inl rfl, rfl, rfl, rfl, fun _ _ _ => rfl⟩
  split at hstep
  · rename_i hmode
    obtain ⟨⟨bytes, counts⟩, hneutral, rfl⟩ := Option.map_eq_some_iff.mp hstep
    exact ⟨_, fixup, _, Or.inl rfl, rfl, neutraliseLongModeBranch_length hneutral, rfl,
      fun hoff => absurd (hmode.symm.trans hoff) (by decide)⟩
  split at hstep
  swap
  · contradiction
  obtain ⟨code, hcode, rfl⟩ := Option.map_eq_some_iff.mp hstep
  unfold emitUnresolvedDirectEdgeDispatch at hcode
  split_ifs at hcode
  obtain ⟨bytes, hpatch, rfl⟩ := Option.map_eq_some_iff.mp hcode
  obtain ⟨hle, rfl⟩ := patchRel32_spec hpatch
  refine ⟨_, { fixup with resolved := true }, _, Or.inr rfl, rfl, overwrite_length hle, rfl, fun _ a ha => ?_⟩
  exact overwrite_getD hle (ha hext)

/-- One fixup: what it may write, and that it keeps the structure. -/
theorem resolveFixup_keeps {input : BuildInput} {map : List AotAddressMapEntry} {c : Fragment}
    {s s' : ResolveState} {fixup : AotCodeCacheFixup} (h : Keeps c s.code)
    (hstep : resolveFixup input map s fixup = some s') : Keeps c s'.code := by
  obtain ⟨base, fixup', bytes, hbase, -, hlength, hcode, -⟩ := resolveFixup_cases hstep
  rw [hcode]
  rcases hbase with rfl | rfl
  · exact h.rewrite _ hlength
  · exact (h.stub fixup).rewrite _ hlength

theorem resolveFixups_keeps {input : BuildInput} {map : List AotAddressMapEntry} {c : Fragment}
    {fixups : List AotCodeCacheFixup} {s r : ResolveState} (h : Keeps c s.code)
    (hrun : resolveFixups input map fixups s = some r) : Keeps c r.code := by
  induction fixups generalizing s with
  | nil =>
    rw [resolveFixups, Option.some.injEq] at hrun
    exact hrun ▸ h
  | cons x xs ih =>
    rw [resolveFixups] at hrun
    split at hrun
    · contradiction
    · rename_i s' hstep
      exact ih (resolveFixup_keeps h hstep) hrun

/-! ## The bytes of the 32-bit back end -/

/-- A fixup of the 32-bit back end writes its displacement, and nothing when it is external. -/
theorem resolveFixup_getD {input : BuildInput} (hmode : input.options.enableLongModeEmission = false)
    {map : List AotAddressMapEntry} {s s' : ResolveState} {fixup : AotCodeCacheFixup}
    (hstep : resolveFixup input map s fixup = some s') {a : ℕ} (ha : a < s.code.bytes.length)
    (hout : isExternalFixup s.code.bytes fixup = false →
      a < fixup.cachePatchOffset ∨ fixup.cachePatchOffset + 4 ≤ a) :
    s'.code.bytes.getD a 0 = s.code.bytes.getD a 0 := by
  obtain ⟨base, fixup', bytes, hbase, -, -, hcode, hbytes⟩ := resolveFixup_cases hstep
  have hsame : s'.code.bytes.getD a 0 = base.bytes.getD a 0 := hcode ▸ hbytes hmode a hout
  rw [hsame]
  rcases hbase with rfl | rfl
  · rfl
  · exact List.getD_append _ _ _ _ ha

/-- The fixups that are still to be resolved see the bytes of the emitted code. -/
structure Untouched (c : Fragment) (fixups : List AotCodeCacheFixup) (bytes : List Byte) : Prop where
  length : c.bytes.length ≤ bytes.length
  lt_length : ∀ x ∈ fixups, x.cachePatchOffset < c.bytes.length
  same : ∀ x ∈ fixups, bytes.getD x.cachePatchOffset 0 = c.bytes.getD x.cachePatchOffset 0
  sorted : fixups.Pairwise fun x y => x.cachePatchOffset + fixupWidth c.bytes x ≤ y.cachePatchOffset

theorem Untouched.isExternalFixup {c : Fragment} {fixups : List AotCodeCacheFixup} {bytes : List Byte}
    (h : Untouched c fixups bytes) {x : AotCodeCacheFixup} (hx : x ∈ fixups) :
    isExternalFixup bytes x = Runtime.isExternalFixup c.bytes x := by
  simp only [Runtime.isExternalFixup, h.same x hx]

/-- Resolving the first fixup leaves the bytes of the others alone. -/
theorem Untouched.step {input : BuildInput} (hmode : input.options.enableLongModeEmission = false)
    {map : List AotAddressMapEntry} {c : Fragment} {x : AotCodeCacheFixup} {xs : List AotCodeCacheFixup}
    {s s' : ResolveState} (h : Untouched c (x :: xs) s.code.bytes)
    (hstep : resolveFixup input map s x = some s') : Untouched c xs s'.code.bytes where
  length := h.length.trans (resolveFixup_keeps (Keeps.refl s.code) hstep).length
  lt_length := fun y hy => h.lt_length y (List.mem_cons_of_mem x hy)
  same := by
    intro y hy
    have hlt := h.lt_length y (List.mem_cons_of_mem x hy)
    have hle := h.length
    rw [← h.same y (List.mem_cons_of_mem x hy)]
    refine resolveFixup_getD hmode hstep (by omega) fun hext => ?_
    rw [h.isExternalFixup List.mem_cons_self] at hext
    have hsorted := (List.pairwise_cons.mp h.sorted).1 y hy
    simp only [fixupWidth, hext, Bool.false_eq_true, if_false] at hsorted
    exact Or.inr hsorted
  sorted := (List.pairwise_cons.mp h.sorted).2

/-- Resolution leaves a byte alone that no open fixup covers. -/
theorem resolveFixups_getD {input : BuildInput} (hmode : input.options.enableLongModeEmission = false)
    {map : List AotAddressMapEntry} {c : Fragment} {fixups : List AotCodeCacheFixup} {s r : ResolveState}
    (h : Untouched c fixups s.code.bytes) (hrun : resolveFixups input map fixups s = some r) {a : ℕ}
    (ha : a < c.bytes.length)
    (hout : ∀ x ∈ fixups, isExternalFixup c.bytes x = false →
      a < x.cachePatchOffset ∨ x.cachePatchOffset + 4 ≤ a) :
    r.code.bytes.getD a 0 = s.code.bytes.getD a 0 := by
  induction fixups generalizing s with
  | nil =>
    rw [resolveFixups, Option.some.injEq] at hrun
    rw [hrun]
  | cons x xs ih =>
    rw [resolveFixups] at hrun
    split at hrun
    · contradiction
    · rename_i s' hstep
      have hle := h.length
      rw [ih (h.step hmode hstep) hrun fun y hy => hout y (List.mem_cons_of_mem x hy)]
      refine resolveFixup_getD hmode hstep (by omega) fun hext => ?_
      rw [h.isExternalFixup List.mem_cons_self] at hext
      exact hout x List.mem_cons_self hext

/-! ## Images -/

/-- The layout of a finished image. -/
structure ImageSpec (code : Fragment) (map : List AotAddressMapEntry) : Prop where
  sites : SiteSpec code.segmentViews code.indirectInlineCacheSites map code.bytes.length
  windows : WindowSpec code.placementWindows code.indirectInlineCacheSites map code.bytes.length
  fresh : ∀ s ∈ code.indirectInlineCacheSites, ChainFresh (ofBytes code.bytes) s

/-- The slots of the 64-bit back end have no guard chain. -/
theorem EmitSpec.imageSpec {input : BuildInput} {map : List AotAddressMapEntry} {code : Fragment}
    {counts : List ℕ} {r : ResolveState} (h : EmitSpec code map)
    (hchains : input.options.enableLongModeEmission = true → code.indirectInlineCacheSites = [])
    (hrun : resolveFixups input map code.fixups ⟨{ code with fixups := [] }, counts⟩ = some r) :
    ImageSpec r.code map := by
  have hkeeps : Keeps code r.code :=
    resolveFixups_keeps ((Keeps.refl code).rewrite [] rfl) hrun
  refine ⟨?_, ?_, ?_⟩
  · rw [hkeeps.views, hkeeps.chains]
    exact ⟨fun e he => ⟨(h.sites.entries_in e he).1, (h.sites.entries_in e he).2.trans hkeeps.length⟩,
      h.sites.entries_apart, h.sites.views_in, h.sites.chains_in, h.sites.chains_apart,
      h.sites.views_chains⟩
  · rw [hkeeps.chains]
    refine ⟨?_, ?_, ?_⟩
    · intro w hw
      rcases hkeeps.windows w hw with hw | hw
      · exact (h.windows.below w hw).trans hkeeps.length
      · exact hw.2
    · intro w hw e he
      rcases hkeeps.windows w hw with hw | hw
      · exact h.windows.off_starts w hw e he
      · have := h.sites.entries_in e he
        unfold AotAddressMapEntry.limit at this
        omega
    · intro w hw s hs
      rcases hkeeps.windows w hw with hw | hw
      · exact h.windows.off_chains w hw s hs
      · have := h.sites.chain_lt hs
        omega
  · intro s hs
    rw [hkeeps.chains] at hs
    cases hmode : input.options.enableLongModeEmission with
    | true =>
      rw [hchains hmode] at hs
      cases hs
    | false =>
      obtain ⟨e, -, hin⟩ := h.sites.chains_in s hs
      have hlt := h.sites.chain_lt hs
      have huntouched : Untouched code code.fixups code.bytes :=
        ⟨le_rfl, fun x hx => h.fixups.lt_length hx, fun x _ => rfl, h.fixups.sorted⟩
      refine (h.fresh s hs).congr hin fun a hlo hhi => ?_
      refine resolveFixups_getD hmode huntouched hrun (by omega) fun x hx hext => ?_
      have hx' := h.fixups_chains x hx s hs
      have hstart := hin.start_eq
      simp only [fixupWidth, hext, Bool.false_eq_true, if_false] at hx'
      omega

/-- What a built image is made of. -/
theorem buildAotCodeCacheImage_eq_some {input : BuildInput} {plan : AotTranslationPlan}
    {image : AotCodeCacheImage} (h : buildAotCodeCacheImage input plan = some image) :
    ∃ r, resolveFixups input (emitBlocks input plan.blocks).addressMap
        (emitBlocks input plan.blocks).code.fixups
        ⟨{ (emitBlocks input plan.blocks).code with fixups := [] },
          (emitBlocks input plan.blocks).entryInstructions⟩ = some r ∧
      image.code = r.code ∧ image.addressMap = (emitBlocks input plan.blocks).addressMap ∧
      image.options = input.options ∧ image.bytes ≠ [] ∧ plan.valid = true := by
  unfold buildAotCodeCacheImage at h
  simp only at h
  split at h
  · contradiction
  rename_i hvalid
  split at h
  · contradiction
  rename_i r hr
  split at h
  · contradiction
  split at h
  · contradiction
  rename_i hne
  rw [not_or] at hvalid hne
  rw [← Option.some.inj h]
  exact ⟨r, hr, rfl, rfl, rfl, hne.1, by simpa using hvalid.1⟩

/-- A plan emission can rely on: the decoder's tables know PUSH, and every record stands for an
instruction or an excluded address, as in every plan of the planner. -/
structure EmittablePlan (table : Table) (plan : AotTranslationPlan) : Prop where
  push : PushRows table
  planned : RecordInvariant.All (Planned table) plan.blocks

theorem EmittablePlan.records {input : BuildInput} {plan : AotTranslationPlan}
    (h : EmittablePlan input.table plan) : RecordInvariant.All (Emittable input) plan.blocks :=
  fun b hb r hr => ⟨h.push, h.planned b hb r hr⟩

theorem imageSpec_buildAotCodeCacheImage {input : BuildInput} {plan : AotTranslationPlan}
    {image : AotCodeCacheImage} (hplan : EmittablePlan input.table plan)
    (h : buildAotCodeCacheImage input plan = some image) : ImageSpec image.code image.addressMap := by
  obtain ⟨r, hr, hcode, hmap, -⟩ := buildAotCodeCacheImage_eq_some h
  have hemitted := emitted_emitBlocks hplan.records
  rw [hcode, hmap]
  exact hemitted.spec.imageSpec hemitted.no_chain hr

end Repiu.Runtime
