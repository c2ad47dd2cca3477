import Mathlib.Data.List.AList
import Repiu.Engine.VerifiedRegions
import Repiu.StepRuns
import Repiu.X86.OwnBytes

/-!
# The reject cache of linear spans

Entering a straight-line span, which remembers the entries that it rejected by the bytes that it decided on
(`native_linear_span.cpp`), and that this never changes a decision.
-/

namespace Repiu.Engine.VerifiedRegion

open X86 StepRuns

/-! ## The cache -/

/-- `NativeLinearSpanRejectCacheEntry`. -/
structure NativeLinearSpanRejectCacheEntry where
  bytes : Fin kNativeLinearSpanRejectSnapshotCapacity.toNat → Byte := fun _ => 0
  byteCount : Word := 0

/-- `kNativeLinearSpanRejectCacheMaxEntries`. -/
def kNativeLinearSpanRejectCacheMaxEntries : ℕ := 65536

/-- `linear_span_reject_cache`. -/
abbrev RejectCache := AList fun _ : Word => NativeLinearSpanRejectCacheEntry

namespace NativeLinearSpanRejectCacheEntry

/-- The `memcmp` of the snapshot with the memory of now. -/
def isCurrent (cached : NativeLinearSpanRejectCacheEntry) (memory : Word → Byte) (entry : Word) : Bool :=
  decide (∀ k, k.val < cached.byteCount.toNat → cached.bytes k = memory (entry + BitVec.ofNat 32 k))

/-- The `memcpy` into the snapshot. -/
def snapshot (cached : NativeLinearSpanRejectCacheEntry) (memory : Word → Byte) (entry byteCount : Word) :
    NativeLinearSpanRejectCacheEntry :=
  { bytes := fun k => if k.val < byteCount.toNat then memory (entry + BitVec.ofNat 32 k) else cached.bytes k
    byteCount := byteCount }

end NativeLinearSpanRejectCacheEntry

/-- `LookupNativeLinearSpanRejectCache`. -/
def lookupNativeLinearSpanRejectCache (memory : Word → Byte) (cache : RejectCache) (entry : Word) :
    Bool × RejectCache :=
  match cache.lookup entry with
  | none => (false, cache)
  | some cached =>
    if cached.byteCount = 0 ∨ kNativeLinearSpanRejectSnapshotCapacity < cached.byteCount ∨
        !cached.isCurrent memory entry then (false, cache.erase entry)
    else (true, cache)

/-- `StoreNativeLinearSpanRejectCache`. -/
def storeNativeLinearSpanRejectCache (memory : Word → Byte) (cache : RejectCache) (entry : Word)
    (span : NativeLinearSpan) : RejectCache :=
  let byteCount := span.cacheableRejectionByteCount
  if byteCount = 0 ∨ kNativeLinearSpanRejectSnapshotCapacity < byteCount then cache
  else
    match cache.lookup entry with
    | some cached => cache.insert entry (cached.snapshot memory entry byteCount)
    | none =>
      if kNativeLinearSpanRejectCacheMaxEntries ≤ cache.entries.length then cache
      else cache.insert entry ({ : NativeLinearSpanRejectCacheEntry }.snapshot memory entry byteCount)

/-! ## Entering and leaving -/

/-- The registers that a span uses. -/
structure SpanRegisters where
  eip : Word
  dr0 : Word
  dr6 : Word
  dr7 : Word
  eFlags : Word
deriving DecidableEq

/-- What spans use of `NativeFastPathState`, the cache apart. -/
structure SpanFlags where
  active : Bool := false
  linearSpanActive : Bool := false
  linearSpanBoundary : Word := 0
  linearSpanInstructionCount : ℕ := 0
  linearSpanSavedDr0 : Word := 0
  linearSpanSavedDr6 : Word := 0
  linearSpanSavedDr7 : Word := 0
deriving DecidableEq

/-- `NativeFastPathState`. -/
structure NativeFastPathState where
  flags : SpanFlags := {}
  linearSpanRejectCache : RejectCache := ∅

/-- What a step leaves in the flags and the registers, with the result of the call. -/
abbrev SpanOutcome := Bool × SpanFlags × SpanRegisters

namespace SpanFlags

variable (flags : SpanFlags) (registers : SpanRegisters)

/-- The registers and flags of a span that is entered. -/
def enter (span : NativeLinearSpan) : SpanOutcome :=
  (true,
    { flags with
      linearSpanBoundary := span.boundaryAddress
      linearSpanInstructionCount := span.instructionCount
      linearSpanSavedDr0 := registers.dr0
      linearSpanSavedDr6 := registers.dr6
      linearSpanSavedDr7 := registers.dr7
      linearSpanActive := true },
    { registers with
      dr0 := span.boundaryAddress
      dr6 := 0
      -- Slot zero of Dr7 only.
      dr7 := registers.dr7 &&& ~~~0x000F0003 ||| 1
      eFlags := registers.eFlags &&& ~~~0x00000100 })

/-- `LeaveNativeLinearSpan`. -/
def leave : SpanOutcome :=
  if !flags.linearSpanActive then (false, flags, registers)
  else
    (true, { flags with linearSpanActive := false },
      { registers with
        dr0 := flags.linearSpanSavedDr0
        dr6 := flags.linearSpanSavedDr6
        dr7 := flags.linearSpanSavedDr7
        eFlags := registers.eFlags ||| 0x00000100 })

end SpanFlags

/-- `TryEnterNativeLinearSpan`. -/
def tryEnterNativeLinearSpan (rejectCacheEnabled : Bool) (g : Guest) (range : RuntimeRange)
    (registers : SpanRegisters) (s : NativeFastPathState) : SpanOutcome × NativeFastPathState :=
  if s.flags.active ∨ s.flags.linearSpanActive then ((false, s.flags, registers), s)
  else
    let entry := registers.eip
    let looked :=
      if rejectCacheEnabled then lookupNativeLinearSpanRejectCache g.memory s.linearSpanRejectCache entry
      else (false, s.linearSpanRejectCache)
    if looked.1 then ((false, s.flags, registers), { s with linearSpanRejectCache := looked.2 })
    else
      match scanNativeLinearSpanWithZydis g range entry {} with
      | (false, span) =>
        ((false, s.flags, registers),
          { s with
            linearSpanRejectCache :=
              if rejectCacheEnabled then storeNativeLinearSpanRejectCache g.memory looked.2 entry span
              else looked.2 })
      | (true, span) =>
        let outcome := s.flags.enter registers span
        (outcome, { flags := outcome.2.1, linearSpanRejectCache := looked.2 })

/-- What happens to the spans of a thread: a call with the memory, the range and the registers of that moment,
the end of a span, and whatever the engine does to the flags between them. -/
inductive SpanEvent
  | enter (memory : Word → Byte) (range : RuntimeRange) (registers : SpanRegisters)
  | leave (registers : SpanRegisters)
  | between (flags : SpanFlags)

/-- One event, of a decoder with these tables. -/
def spanStep (table : Table) (metadata : Metadata) (rejectCacheEnabled : Bool) (s : NativeFastPathState) :
    SpanEvent → Option SpanOutcome × NativeFastPathState
  | .enter memory range registers =>
    let result := tryEnterNativeLinearSpan rejectCacheEnabled ⟨memory, table, metadata⟩ range registers s
    (some result.1, result.2)
  | .leave registers =>
    let outcome := s.flags.leave registers
    (some outcome, { s with flags := outcome.2.1 })
  | .between flags => (none, { s with flags := flags })

/-! ## What a rejection was decided on -/

/-- An entry is rejected in every memory with these first bytes, whatever the runtime range. -/
def RejectsOn (g : Guest) (entry : Word) (count : ℕ) : Prop :=
  ∀ memory, (∀ k < count, memory (entry + BitVec.ofNat 32 k) = g.memory (entry + BitVec.ofNat 32 k)) →
    ∀ range span, (scanNativeLinearSpanWithZydis { g with memory := memory } range entry span).1 = false

/-- An instruction is decoded alike in every memory with its bytes. -/
theorem decodeAt_congr {g : Guest} (hown : DecodesOwnBytes g.table) {memory : Word → Byte} {a : Word}
    {i : Instruction} (h : g.decodeAt a = some i)
    (hmemory : ∀ k < i.length, memory (a + BitVec.ofNat 32 k) = g.memory (a + BitVec.ofNat 32 k)) :
    ({ g with memory := memory } : Guest).decodeAt a = some i := by
  have hlength := decode_length_le h
  obtain ⟨rest₁, rest₂, rest₃, rest₄, hd⟩ := decode_iff.mp h
  have htake : (g.bytes a maxInstructionLength).take i.length = i.bytes := by
    rw [hd.input_eq, ← i.bytes_length, List.take_left]
  have hsame : (({ g with memory := memory } : Guest).bytes a maxInstructionLength).take i.length = i.bytes := by
    rw [← htake]
    unfold Guest.bytes
    rw [← List.map_take, ← List.map_take, List.take_range, min_eq_left hlength]
    exact List.map_congr_left fun k hk => hmemory k (List.mem_range.mp hk)
  have hsplit := List.take_append_drop i.length (({ g with memory := memory } : Guest).bytes a maxInstructionLength)
  rw [hsame] at hsplit
  unfold Guest.decodeAt
  rw [← hsplit]
  exact hown _ _ _ h _

theorem isBoundary_memory (g : Guest) (memory : Word → Byte) (i : Instruction) :
    isBoundary { g with memory := memory } i = isBoundary g i := rfl

/-- A rejection that may be cached was decided on the bytes that are counted. The walk over the span stays
below the counted bytes, and ends at an instruction that comes too early. -/
theorem scan_rejects {g : Guest} (hown : DecodesOwnBytes g.table) {range : RuntimeRange} {entry : Word}
    (left count offset : ℕ) (hshort : offset + maxInstructionLength * left < 2 ^ 32) {byteCount : Word}
    (h : (scan g range entry left count (entry + BitVec.ofNat 32 offset)).2.cacheableRejectionByteCount = byteCount)
    (hne : byteCount ≠ 0) :
    offset ≤ byteCount.toNat ∧
      ∀ memory, (∀ k < byteCount.toNat,
          memory (entry + BitVec.ofNat 32 k) = g.memory (entry + BitVec.ofNat 32 k)) →
        ∀ range', (scan { g with memory := memory } range' entry left count (entry + BitVec.ofNat 32 offset)).1 =
          false := by
  induction left generalizing count offset with
  | zero => exact absurd h.symm hne
  | succ left ih =>
    rw [scan] at h
    split_ifs at h with hrange
    · exact absurd h.symm hne
    cases hdecode : g.decodeAt (entry + BitVec.ofNat 32 offset) with
    | none =>
      rw [hdecode] at h
      exact absurd h.symm hne
    | some i =>
      simp only [hdecode] at h
      have hlength := decode_length_le hdecode
      have hleft : maxInstructionLength * (left + 1) = maxInstructionLength * left + maxInstructionLength :=
        Nat.mul_succ _ _
      have hnext : entry + BitVec.ofNat 32 offset + BitVec.ofNat 32 i.length =
          entry + BitVec.ofNat 32 (offset + i.length) := by
        rw [BitVec.ofNat_add, BitVec.add_assoc]
      have hcovered : offset + i.length ≤ byteCount.toNat → ∀ memory, (∀ k < byteCount.toNat,
          memory (entry + BitVec.ofNat 32 k) = g.memory (entry + BitVec.ofNat 32 k)) →
          ({ g with memory := memory } : Guest).decodeAt (entry + BitVec.ofNat 32 offset) = some i := by
        intro hle memory hmemory
        refine decodeAt_congr hown hdecode fun k hk => ?_
        rw [BitVec.add_assoc, ← BitVec.ofNat_add]
        exact hmemory _ (by omega)
      split_ifs at h with hzero hboundary
      · exact absurd h.symm hne
      · -- the instruction that ends the span
        have hspan : (spanBefore g entry (entry + BitVec.ofNat 32 offset) count i).cacheableRejectionByteCount =
            byteCount := h
        unfold spanBefore at hspan
        dsimp only at hspan
        have hdiff : entry + BitVec.ofNat 32 offset - entry + BitVec.ofNat 32 i.length =
            BitVec.ofNat 32 (offset + i.length) := by
          rw [BitVec.ofNat_add]
          ring
        rw [hdiff] at hspan
        split_ifs at hspan with hearly
        · have hcount : byteCount.toNat = offset + i.length := by
            rw [← hspan, BitVec.toNat_ofNat, Nat.mod_eq_of_lt (by omega)]
          refine ⟨by omega, fun memory hmemory range' => ?_⟩
          rw [scan]
          split_ifs
          · rfl
          simp only [hcovered (by omega) memory hmemory, hzero, if_false, isBoundary_memory, hboundary, if_true]
          exact decide_eq_false (by omega)
        · exact absurd hspan.symm hne
      · -- an instruction that the span runs over
        rw [hnext] at h
        obtain ⟨hle, hrejects⟩ := ih (count + 1) (offset + i.length) (by omega) h
        refine ⟨by omega, fun memory hmemory range' => ?_⟩
        rw [scan]
        split_ifs
        · rfl
        simp only [hcovered hle memory hmemory, hzero, if_false, isBoundary_memory, hboundary, hnext]
        exact hrejects memory hmemory range'

theorem scanNativeLinearSpanWithZydis_rejects {g : Guest} (hown : DecodesOwnBytes g.table) (range : RuntimeRange)
    (entry : Word)
    (hne : (scanNativeLinearSpanWithZydis g range entry {}).2.cacheableRejectionByteCount ≠ 0) :
    RejectsOn g entry (scanNativeLinearSpanWithZydis g range entry {}).2.cacheableRejectionByteCount.toNat := by
  unfold scanNativeLinearSpanWithZydis at hne ⊢
  split_ifs at hne ⊢ with hrange
  · exact absurd rfl hne
  intro memory hmemory range' span
  have hentry : entry + BitVec.ofNat 32 0 = entry := BitVec.add_zero entry
  unfold scanNativeLinearSpanWithZydis
  split_ifs
  · rfl
  · have hscan := (scan_rejects hown kMaximumInstructionCount 0 0 (by decide) rfl (by rwa [hentry])).2 memory
      (by rwa [hentry]) range'
    rwa [hentry] at hscan

/-! ## Soundness of the cache -/

/-- Every entry that is found and is current is rejected. -/
def RejectCache.Sound (table : Table) (metadata : Metadata) (cache : RejectCache) : Prop :=
  ∀ entry cached, cache.lookup entry = some cached → cached.byteCount ≤ kNativeLinearSpanRejectSnapshotCapacity →
    ∀ memory, cached.isCurrent memory entry = true →
      ∀ range span, (scanNativeLinearSpanWithZydis ⟨memory, table, metadata⟩ range entry span).1 = false

section
variable {table : Table} {metadata : Metadata} {cache : RejectCache} {memory : Word → Byte} {entry : Word}

theorem RejectCache.sound_empty : RejectCache.Sound table metadata ∅ := by
  intro entry cached hfound
  cases hfound

theorem RejectCache.Sound.erase (h : RejectCache.Sound table metadata cache) (entry : Word) :
    RejectCache.Sound table metadata (cache.erase entry) := by
  intro other cached hfound
  by_cases hother : other = entry
  · subst hother
    rw [AList.lookup_erase] at hfound
    cases hfound
  · rw [AList.lookup_erase_ne hother] at hfound
    exact h other cached hfound

/-- A snapshot is current where the memory has the bytes that it was taken of. -/
theorem NativeLinearSpanRejectCacheEntry.isCurrent_snapshot {cached : NativeLinearSpanRejectCacheEntry}
    {memory' : Word → Byte} {byteCount : Word} (hfits : byteCount ≤ kNativeLinearSpanRejectSnapshotCapacity)
    (h : (cached.snapshot memory entry byteCount).isCurrent memory' entry = true) :
    ∀ k < byteCount.toNat, memory' (entry + BitVec.ofNat 32 k) = memory (entry + BitVec.ofNat 32 k) := by
  intro k hk
  have hcurrent := of_decide_eq_true h ⟨k, lt_of_lt_of_le hk (BitVec.le_def.mp hfits)⟩ hk
  dsimp only [snapshot] at hcurrent
  rw [if_pos hk] at hcurrent
  exact hcurrent.symm

theorem RejectCache.Sound.insert (h : RejectCache.Sound table metadata cache)
    {cached : NativeLinearSpanRejectCacheEntry} {byteCount : Word}
    (hrejects : RejectsOn ⟨memory, table, metadata⟩ entry byteCount.toNat) :
    RejectCache.Sound table metadata (cache.insert entry (cached.snapshot memory entry byteCount)) := by
  intro other found hfound hfits memory' hcurrent range span
  by_cases hother : other = entry
  · subst hother
    rw [AList.lookup_insert, Option.some.injEq] at hfound
    subst hfound
    exact hrejects memory' (NativeLinearSpanRejectCacheEntry.isCurrent_snapshot hfits hcurrent) range span
  · rw [AList.lookup_insert_ne hother] at hfound
    exact h other found hfound hfits memory' hcurrent range span

/-- A hit is rejected by the scan of this moment. -/
theorem RejectCache.Sound.lookup (h : RejectCache.Sound table metadata cache)
    (hhit : (lookupNativeLinearSpanRejectCache memory cache entry).1 = true) (range : RuntimeRange)
    (span : NativeLinearSpan) :
    (scanNativeLinearSpanWithZydis ⟨memory, table, metadata⟩ range entry span).1 = false := by
  unfold lookupNativeLinearSpanRejectCache at hhit
  cases hfound : cache.lookup entry with
  | none => simp [hfound] at hhit
  | some cached =>
    simp only [hfound] at hhit
    split_ifs at hhit with hstale
    rw [not_or, not_or, BitVec.not_lt, Bool.not_eq_true, Bool.not_eq_false'] at hstale
    exact h entry cached hfound hstale.2.1 memory hstale.2.2 range span

theorem RejectCache.Sound.lookup_snd (h : RejectCache.Sound table metadata cache) (memory : Word → Byte)
    (entry : Word) :
    RejectCache.Sound table metadata (lookupNativeLinearSpanRejectCache memory cache entry).2 := by
  unfold lookupNativeLinearSpanRejectCache
  cases cache.lookup entry with
  | none => exact h
  | some cached =>
    dsimp only
    split_ifs
    · exact h.erase entry
    · exact h

theorem RejectCache.Sound.store (hown : DecodesOwnBytes table) (h : RejectCache.Sound table metadata cache)
    (memory : Word → Byte) (range : RuntimeRange) (entry : Word) :
    RejectCache.Sound table metadata (storeNativeLinearSpanRejectCache memory cache entry
      (scanNativeLinearSpanWithZydis ⟨memory, table, metadata⟩ range entry {}).2) := by
  unfold storeNativeLinearSpanRejectCache
  dsimp only
  have hrejects := scanNativeLinearSpanWithZydis_rejects hown (g := ⟨memory, table, metadata⟩) range entry
  generalize (scanNativeLinearSpanWithZydis ⟨memory, table, metadata⟩ range entry {}).2 = span at hrejects ⊢
  by_cases hskip : span.cacheableRejectionByteCount = 0 ∨
      kNativeLinearSpanRejectSnapshotCapacity < span.cacheableRejectionByteCount
  · rw [if_pos hskip]
    exact h
  · rw [if_neg hskip]
    rw [not_or] at hskip
    specialize hrejects hskip.1
    cases cache.lookup entry with
    | some cached => exact h.insert hrejects
    | none =>
      dsimp only
      split_ifs
      · exact h
      · exact h.insert hrejects

end

/-! ## With and without the cache -/

/-- The states of two runs, of which the first one's cache is sound. -/
structure SameSpans (table : Table) (metadata : Metadata) (s t : NativeFastPathState) : Prop where
  flags : s.flags = t.flags
  sound : RejectCache.Sound table metadata s.linearSpanRejectCache

section
variable {table : Table} {metadata : Metadata} {s t : NativeFastPathState}

theorem SameSpans.tryEnter (hown : DecodesOwnBytes table) (h : SameSpans table metadata s t) (memory : Word → Byte)
    (range : RuntimeRange) (registers : SpanRegisters) :
    (tryEnterNativeLinearSpan true ⟨memory, table, metadata⟩ range registers s).1 =
        (tryEnterNativeLinearSpan false ⟨memory, table, metadata⟩ range registers t).1 ∧
      SameSpans table metadata (tryEnterNativeLinearSpan true ⟨memory, table, metadata⟩ range registers s).2
        (tryEnterNativeLinearSpan false ⟨memory, table, metadata⟩ range registers t).2 := by
  obtain ⟨hflags, hsound⟩ := h
  unfold tryEnterNativeLinearSpan
  rw [← hflags]
  by_cases hactive : s.flags.active = true ∨ s.flags.linearSpanActive = true
  · rw [if_pos hactive, if_pos hactive]
    exact ⟨rfl, hflags, hsound⟩
  rw [if_neg hactive, if_neg hactive]
  simp only [if_true, Bool.false_eq_true, if_false]
  have hlooked := hsound.lookup_snd memory registers.eip
  have hstored := hlooked.store hown memory range registers.eip
  by_cases hhit : (lookupNativeLinearSpanRejectCache memory s.linearSpanRejectCache registers.eip).1 = true
  · -- the entry is cached: the scan without the cache rejects it too
    rw [if_pos hhit]
    have hrejects := hsound.lookup hhit range {}
    cases hscan : scanNativeLinearSpanWithZydis ⟨memory, table, metadata⟩ range registers.eip {} with
    | mk accepted span =>
      rw [hscan] at hrejects
      subst hrejects
      exact ⟨rfl, rfl, hlooked⟩
  · rw [if_neg hhit]
    cases hscan : scanNativeLinearSpanWithZydis ⟨memory, table, metadata⟩ range registers.eip {} with
    | mk accepted span =>
      rw [hscan] at hstored
      cases accepted with
      | false => exact ⟨rfl, rfl, hstored⟩
      | true => exact ⟨rfl, rfl, hlooked⟩

theorem SameSpans.step (hown : DecodesOwnBytes table) (h : SameSpans table metadata s t) (e : SpanEvent) :
    (spanStep table metadata true s e).1 = (spanStep table metadata false t e).1 ∧
      SameSpans table metadata (spanStep table metadata true s e).2 (spanStep table metadata false t e).2 := by
  cases e with
  | enter memory range registers =>
    obtain ⟨hsame, hrel⟩ := h.tryEnter hown memory range registers
    exact ⟨congrArg some hsame, hrel⟩
  | leave registers =>
    unfold spanStep
    rw [h.flags]
    exact ⟨rfl, rfl, h.sound⟩
  | between flags => exact ⟨rfl, rfl, h.sound⟩

end

/-- What a run leaves behind. -/
def afterSpans (table : Table) (metadata : Metadata) (rejectCacheEnabled : Bool) (s : NativeFastPathState)
    (events : List SpanEvent) : NativeFastPathState :=
  events.foldl (fun s e => (spanStep table metadata rejectCacheEnabled s e).2) s

theorem afterSpans_sound {table : Table} (metadata : Metadata) (hown : DecodesOwnBytes table) (flags : SpanFlags)
    (events : List SpanEvent) :
    RejectCache.Sound table metadata
      (afterSpans table metadata true { flags := flags } events).linearSpanRejectCache := by
  have hkept : EveryState (fun s e => (spanStep table metadata true s e).2)
      (fun s => RejectCache.Sound table metadata s.linearSpanRejectCache) { flags := flags } events :=
    EveryState.of_step (fun s e hs => (SameSpans.step hown ⟨rfl, hs⟩ e).2.sound) RejectCache.sound_empty
  exact hkept.last

/-- The reject cache changes no decision: where it hits, at any moment of any history, the scan of the memory
of that moment rejects, and so every call gives the same with the cache and without it. -/
theorem rejectCache_decides_nothing (table : Table) (metadata : Metadata) (hown : DecodesOwnBytes table)
    (flags : SpanFlags) (events : List SpanEvent) :
    (∀ memory range entry span,
      (lookupNativeLinearSpanRejectCache memory
          (afterSpans table metadata true { flags := flags } events).linearSpanRejectCache entry).1 = true →
        (scanNativeLinearSpanWithZydis ⟨memory, table, metadata⟩ range entry span).1 = false) ∧
      outputs (spanStep table metadata true) { flags := flags } events =
        outputs (spanStep table metadata false) { flags := flags } events :=
  ⟨fun _ range _ span hhit => (afterSpans_sound metadata hown flags events).lookup hhit range span,
    outputs_eq (R := SameSpans table metadata) (fun _ _ e h => h.step hown e) ⟨rfl, RejectCache.sound_empty⟩⟩

/-! ## Samples -/

theorem nativeTable_escapesHaveModrm : EscapesHaveModrm nativeTable := by
  intro mode key next hencoding hmap hescape hrow
  have hopcode : key.opcode ∈ [0xC4, 0xC5, 0x62, 0x8F] := by
    by_contra hother
    simp only [List.mem_cons, List.not_mem_nil, or_false, not_or] at hother
    apply hescape
    unfold vectorEscape
    rw [if_neg (by tauto), if_neg hother.2.2.1, if_neg hother.2.2.2]
  simp only [List.mem_cons, List.not_mem_nil, or_false] at hopcode
  have hnone : nativeTable.lookup mode key = none := by
    unfold nativeTable
    simp only [hencoding, hmap, and_self, if_true]
    rcases hopcode with h | h | h | h <;> rw [h] <;> rfl
  rw [hnone] at hrow
  cases hrow

/-- `nop` and `ret`, too short for a span. -/
def shortGuest : Guest := guestOf [0x90, 0xC3]

/-- The registers at the entry of the sample. -/
def spanRegisters : SpanRegisters := ⟨0, 0, 0, 0, 0x102⟩

/-- The cache after a first call. -/
def shortCache : RejectCache :=
  (afterSpans nativeTable nativeMetadata true {}
    [.enter shortGuest.memory firstPage spanRegisters]).linearSpanRejectCache

/-- The entry is cached by the first call, and stale for a second one with another byte there. -/
theorem rejectCache_decides_nothing_short :
    (lookupNativeLinearSpanRejectCache shortGuest.memory shortCache 0).1 = true ∧
      (scanNativeLinearSpanWithZydis shortGuest firstPage 0 {}).1 = false ∧
      outputs (spanStep nativeTable nativeMetadata true) {}
          [.enter shortGuest.memory firstPage spanRegisters, .enter plainGuest.memory firstPage spanRegisters] =
        outputs (spanStep nativeTable nativeMetadata false) {}
          [.enter shortGuest.memory firstPage spanRegisters, .enter plainGuest.memory firstPage spanRegisters] := by
  have hown := nativeTable_escapesHaveModrm.decodesOwnBytes
  have hhit : (lookupNativeLinearSpanRejectCache shortGuest.memory shortCache 0).1 = true := by decide +kernel
  exact ⟨hhit, (rejectCache_decides_nothing nativeTable nativeMetadata hown {} _).1 _ firstPage 0 {} hhit,
    (rejectCache_decides_nothing nativeTable nativeMetadata hown {} _).2⟩

end Repiu.Engine.VerifiedRegion
