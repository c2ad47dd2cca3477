import Repiu.Sound.Ymz280bDevice

/-!
# Blocks of output

The resampler of a voice in closed form: the frame at a phase is interpolated from two neighbouring
samples, wherever the blocks begin. A block that is cut in two decodes the same samples.
-/

namespace Repiu.Sound.Ymz280b

/-! ## The loops in closed form -/

/-- The samples of a block: the two in flight, then those of the slots, then silence. -/
def sampleAt (last curr : ℤ) (scratch : List ℤ) : ℕ → ℤ
  | 0 => last
  | 1 => curr
  | i + 2 => scratch.getD i 0

/-- The frame at a phase, in units of `1 / kFracOne` of a sample. -/
def frameAt (v : Voice) (samples : ℕ → ℤ) (phase : ℕ) : ℤ × ℤ :=
  emit v (samples (phase / kFracOne)) (samples (phase / kFracOne + 1)) (phase % kFracOne)

/-- Frames one after another. -/
def framesFrom (v : Voice) (samples : ℕ → ℤ) (phase count : ℕ) : List (ℤ × ℤ) :=
  (List.range count).map fun k => frameAt v samples (phase + k * v.outputStep)

@[simp] theorem length_framesFrom (v : Voice) (samples : ℕ → ℤ) (phase count : ℕ) :
    (framesFrom v samples phase count).length = count := by
  rw [framesFrom, List.length_map, List.length_range]

theorem framesFrom_add (v : Voice) (samples : ℕ → ℤ) (phase m n : ℕ) :
    framesFrom v samples phase (m + n) =
      framesFrom v samples phase m ++ framesFrom v samples (phase + m * v.outputStep) n := by
  unfold framesFrom
  rw [List.range_add, List.map_append, List.map_map]
  congr 1
  apply List.map_congr_left
  intro k _
  show frameAt v samples (phase + (m + k) * v.outputStep) = _
  rw [Nat.add_mul, Nat.add_assoc]

/-- A whole sample of phase is one sample further on. -/
theorem framesFrom_shift (v : Voice) (samples : ℕ → ℤ) (whole phase count : ℕ) :
    framesFrom v samples (kFracOne * whole + phase) count =
      framesFrom v (fun i => samples (whole + i)) phase count := by
  unfold framesFrom
  apply List.map_congr_left
  intro k _
  unfold frameAt
  rw [Nat.add_assoc, Nat.mul_add_div (by decide), Nat.mul_add_mod, Nat.add_assoc]

/-- Only the samples up to the last phase matter. -/
theorem framesFrom_congr (v : Voice) {samples samples' : ℕ → ℤ} {phase count : ℕ}
    (h : ∀ i ≤ (phase + count * v.outputStep) / kFracOne + 1, samples i = samples' i) :
    framesFrom v samples phase count = framesFrom v samples' phase count := by
  unfold framesFrom
  apply List.map_congr_left
  intro k hk
  have hle : k * v.outputStep ≤ count * v.outputStep :=
    Nat.mul_le_mul_right _ (List.mem_range.mp hk).le
  have hphase : (phase + k * v.outputStep) / kFracOne ≤ (phase + count * v.outputStep) / kFracOne :=
    Nat.div_le_div_right (Nat.add_le_add_left hle _)
  unfold frameAt
  rw [h _ (by omega), h _ (by omega)]

theorem framesFrom_silent (v : Voice) {samples : ℕ → ℤ} (phase count : ℕ)
    (h : ∀ i, samples (phase / kFracOne + i) = 0) :
    framesFrom v samples phase count = List.replicate count (0, 0) := by
  have hphase : phase = kFracOne * (phase / kFracOne) + phase % kFracOne := (Nat.div_add_mod _ _).symm
  rw [hphase, framesFrom_shift]
  unfold framesFrom
  rw [List.eq_replicate_iff]
  refine ⟨by simp, ?_⟩
  intro frame hframe
  obtain ⟨k, -, rfl⟩ := List.mem_map.mp hframe
  simp [frameAt, emit, h]

/-- The inner loop emits frames up to the next sample. -/
theorem emitWhile_eq (v : Voice) (prev curr : ℤ) (remaining outputPos : ℕ) :
    ∃ count ≤ remaining,
      emitWhile v prev curr remaining outputPos =
        ((List.range count).map fun k => emit v prev curr (outputPos + k * v.outputStep),
          remaining - count, outputPos + count * v.outputStep) ∧
      (∀ k < count, outputPos + k * v.outputStep < kFracOne) ∧
      (count = remaining ∨ kFracOne ≤ outputPos + count * v.outputStep) := by
  induction remaining generalizing outputPos with
  | zero =>
    refine ⟨0, le_refl 0, ?_, fun k hk => absurd hk k.not_lt_zero, .inl rfl⟩
    simp [emitWhile]
  | succ remaining ih =>
    by_cases hpos : outputPos < kFracOne
    · obtain ⟨count, hle, heq, hlow, hend⟩ := ih (outputPos + v.outputStep)
      have hnext : ∀ k, outputPos + v.outputStep + k * v.outputStep =
          outputPos + (k + 1) * v.outputStep := by
        intro k
        rw [Nat.add_mul, Nat.one_mul]
        omega
      refine ⟨count + 1, Nat.succ_le_succ hle, ?_, ?_, ?_⟩
      · rw [emitWhile, if_pos hpos, heq, List.range_succ_eq_map, List.map_cons, List.map_map]
        simp only [Nat.zero_mul, Nat.add_zero, Nat.add_sub_add_right, hnext]
        rfl
      · intro k hk
        cases k with
        | zero => simpa using hpos
        | succ k =>
          rw [← hnext]
          exact hlow k (Nat.lt_of_succ_lt_succ hk)
      · rw [hnext] at hend
        exact hend.imp_left fun h => congrArg (· + 1) h
    · refine ⟨0, Nat.zero_le _, ?_, fun k hk => absurd hk k.not_lt_zero, .inr ?_⟩
      · rw [emitWhile, if_neg hpos]
        simp
      · simpa using hpos

/-- The frames of one pair of samples are those of their phases. -/
theorem emitWhile_frames (v : Voice) (samples : ℕ → ℤ) {phase count : ℕ}
    (h : ∀ k < count, phase + k * v.outputStep < kFracOne) :
    ((List.range count).map fun k => emit v (samples 0) (samples 1) (phase + k * v.outputStep)) =
      framesFrom v samples phase count := by
  unfold framesFrom
  apply List.map_congr_left
  intro k hk
  have hlow := h k (List.mem_range.mp hk)
  unfold frameAt
  rw [Nat.div_eq_of_lt hlow, Nat.mod_eq_of_lt hlow]

/-- The slots with the slack behind them. -/
def slotsOf (scratch : List ℤ) : List ℤ := scratch ++ List.replicate kScratchSlack 0

theorem length_slotsOf (scratch : List ℤ) : (slotsOf scratch).length = scratch.length + 2 := by
  simp [slotsOf, kScratchSlack]

theorem slotsOf_getD (scratch : List ℤ) (i : ℕ) : (slotsOf scratch).getD i 0 = scratch.getD i 0 := by
  unfold slotsOf
  by_cases hi : i < scratch.length
  · rw [List.getD_append _ _ _ _ hi]
  · rw [List.getD_append_right _ _ _ _ (Nat.le_of_not_lt hi),
      List.getD_eq_default scratch _ (Nat.le_of_not_lt hi)]
    rw [List.getD_eq_getElem?_getD, List.getElem?_getD_replicate_default_eq]

/-- The next sample is that of the index, also when the slots are used up. -/
theorem nextScratch_eq (scratch : List ℤ) (index : ℕ) :
    nextScratch (slotsOf scratch) (min index (slotsOf scratch).length) =
      (scratch.getD index 0, min (index + 1) (slotsOf scratch).length) := by
  have hlength := length_slotsOf scratch
  unfold nextScratch
  by_cases hover : (slotsOf scratch).length ≤ index
  · rw [Nat.min_eq_right hover, if_pos (le_refl _), slotsOf_getD, Nat.min_eq_right (by omega),
      List.getD_eq_default _ _ (by omega), List.getD_eq_default _ _ (by omega)]
  · rw [Nat.min_eq_left (by omega), if_neg hover, slotsOf_getD, Nat.min_eq_left (by omega)]

/-- The loop over the frames. -/
theorem mixLoop_eq (v : Voice) (last curr : ℤ) (scratch : List ℤ) (fuel remaining outputPos index : ℕ)
    (hfuel : remaining ≤ fuel) (hpos : outputPos < kFracOne) :
    let samples := sampleAt last curr scratch
    let whole := index + (outputPos + remaining * v.outputStep) / kFracOne
    mixLoop v (slotsOf scratch) fuel remaining outputPos (samples index) (samples (index + 1))
        (min index (slotsOf scratch).length) =
      { frames := framesFrom v (fun i => samples (index + i)) outputPos remaining
        outputPos := (outputPos + remaining * v.outputStep) % kFracOne
        prev := samples whole
        curr := samples (whole + 1)
        scratchIndex := min whole (slotsOf scratch).length } := by
  induction fuel generalizing remaining outputPos index with
  | zero =>
    have hzero : remaining = 0 := Nat.le_zero.mp hfuel
    subst hzero
    simp [mixLoop, framesFrom, Nat.div_eq_of_lt hpos, Nat.mod_eq_of_lt hpos]
  | succ fuel ih =>
    intro samples whole
    by_cases hdone : remaining = 0
    · subst hdone
      simp [mixLoop, framesFrom, whole, samples, Nat.div_eq_of_lt hpos, Nat.mod_eq_of_lt hpos]
    obtain ⟨count, hle, heq, hlow, hend⟩ :=
      emitWhile_eq v (samples index) (samples (index + 1)) remaining outputPos
    have hcount : 0 < count := by
      rcases hend with hall | hhigh
      · omega
      · by_contra hzero
        rw [Nat.eq_zero_of_not_pos hzero] at hhigh
        omega
    have hfirst := emitWhile_frames v (fun i => samples (index + i)) hlow
    have hsplit : framesFrom v (fun i => samples (index + i)) outputPos remaining =
        framesFrom v (fun i => samples (index + i)) outputPos count ++
          framesFrom v (fun i => samples (index + i)) (outputPos + count * v.outputStep) (remaining - count) := by
      rw [← framesFrom_add, Nat.add_sub_cancel' hle]
    have hphase : outputPos + remaining * v.outputStep =
        outputPos + count * v.outputStep + (remaining - count) * v.outputStep := by
      rw [Nat.add_assoc, ← Nat.add_mul, Nat.add_sub_cancel' hle]
    rw [mixLoop, if_neg hdone, heq]
    by_cases hnext : kFracOne ≤ outputPos + count * v.outputStep
    · -- the rest of the frames begin with the next sample
      obtain ⟨carried, hcarried⟩ : ∃ carried, outputPos + count * v.outputStep = kFracOne * 1 + carried :=
        ⟨outputPos + count * v.outputStep - kFracOne, by omega⟩
      have hsub : outputPos + count * v.outputStep - kFracOne = carried := by omega
      have hlt : carried < kFracOne := by
        have hbound := emitWhile_outputPos_lt v (samples index) (samples (index + 1)) remaining outputPos
          (by omega)
        rw [heq] at hbound
        have hbound' : outputPos + count * v.outputStep < 2 * kFracOne := hbound
        omega
      have hrest : mixLoop v (slotsOf scratch) fuel (remaining - count) carried (samples (index + 1))
          (scratch.getD index 0) (min (index + 1) (slotsOf scratch).length) = _ :=
        ih (remaining - count) carried (index + 1) (by omega) hlt
      have hwhole : index + 1 + (carried + (remaining - count) * v.outputStep) / kFracOne = whole := by
        show _ = index + (outputPos + remaining * v.outputStep) / kFracOne
        rw [hphase, hcarried, Nat.add_assoc (kFracOne * 1), Nat.mul_add_div (by decide), Nat.add_assoc]
      have hmod : (carried + (remaining - count) * v.outputStep) % kFracOne =
          (outputPos + remaining * v.outputStep) % kFracOne := by
        rw [hphase, hcarried, Nat.add_assoc (kFracOne * 1), Nat.mul_add_mod]
      have hshift : framesFrom v (fun i => samples (index + i)) (kFracOne * 1 + carried) (remaining - count) =
          framesFrom v (fun i => samples (index + 1 + i)) carried (remaining - count) := by
        rw [framesFrom_shift]
        simp only [Nat.add_assoc]
      simp only [if_pos hnext, hsub, nextScratch_eq, hrest, hwhole, hmod]
      rw [hsplit, hcarried, hshift, ← hfirst]
      rfl
    · -- no frame is left
      have hall : count = remaining := hend.resolve_right hnext
      subst hall
      have hlow' : outputPos + count * v.outputStep < kFracOne := Nat.lt_of_not_le hnext
      have hwhole : whole = index := by
        show index + (outputPos + count * v.outputStep) / kFracOne = index
        rw [Nat.div_eq_of_lt hlow', Nat.add_zero]
      have hended : ∀ fuel, mixLoop v (slotsOf scratch) fuel 0 (outputPos + count * v.outputStep)
          (samples index) (samples (index + 1)) (min index (slotsOf scratch).length) =
            ⟨[], outputPos + count * v.outputStep, samples index, samples (index + 1),
              min index (slotsOf scratch).length⟩ := by
        intro fuel
        cases fuel <;> rfl
      simp only [if_neg hnext, Nat.sub_self, hended, hwhole, Nat.mod_eq_of_lt hlow', ← hfirst,
        List.append_nil, Nat.add_zero]

/-! ## A block of one voice -/

/-- The source samples that so many frames take. -/
def Voice.sampleCount (v : Voice) (frames : ℕ) : ℕ := (v.outputPos + frames * v.outputStep) / kFracOne

/-- A voice without sound that does nothing to get one. -/
def Voice.Idle (v : Voice) : Prop := v.playing = false ∧ v.currSample = 0 ∧ v.lastSample = 0

theorem newSamples_eq {outputPos remaining outputStep : ℕ}
    (h : (outputPos + remaining * outputStep + kFracOne) / kFracOne < kMaxSampleChunk) :
    newSamples outputPos remaining outputStep =
      (outputPos + remaining * outputStep + kFracOne) / kFracOne := by
  have hsmall : outputPos + remaining * outputStep + kFracOne < kMaxSampleChunk * kFracOne :=
    (Nat.div_lt_iff_lt_mul (by decide)).mp h
  have hbound : kMaxSampleChunk * kFracOne < 2 ^ 31 := by decide
  have hsum : (BitVec.ofNat 32 outputPos + BitVec.ofNat 32 (remaining * outputStep) +
      BitVec.ofNat 32 kFracOne : Word) = BitVec.ofNat 32 (outputPos + remaining * outputStep + kFracOne) := by
    rw [BitVec.ofNat_add, BitVec.ofNat_add]
  have hnat : (BitVec.ofNat 32 (outputPos + remaining * outputStep + kFracOne)).toNat =
      outputPos + remaining * outputStep + kFracOne := by
    rw [BitVec.toNat_ofNat, Nat.mod_eq_of_lt (by omega)]
  have hpositive : (BitVec.ofNat 32 (outputPos + remaining * outputStep + kFracOne)).msb = false := by
    rw [BitVec.msb_eq_false_iff_two_mul_lt, hnat]
    omega
  unfold newSamples
  simp only [hsum]
  rw [BitVec.sshiftRight_eq_of_msb_false hpositive, BitVec.toNat_ushiftRight, hnat,
    Nat.shiftRight_eq_div_pow]
  exact Nat.min_eq_left h.le

/-! ## Decoding in parts -/

section
variable {sample : Source → ℤ × Source × Bool} {s s' : Source} {x : ℤ}

theorem decodeLoop_break (h : sample s = (x, s', true)) (count : ℕ) :
    decodeLoop sample (count + 1) s = { samples := [x], left := count, source := s', ended := true } := by
  rw [decodeLoop, h]

theorem decodeLoop_next (h : sample s = (x, s', false)) (count : ℕ) :
    decodeLoop sample (count + 1) s =
      { decodeLoop sample count s' with samples := x :: (decodeLoop sample count s').samples } := by
  rw [decodeLoop, h]

theorem decodeLoop_length (count : ℕ) (s : Source) :
    (decodeLoop sample count s).samples.length + (decodeLoop sample count s).left = count := by
  induction count generalizing s with
  | zero => rfl
  | succ count ih =>
    rcases hsample : sample s with ⟨x, s', ended⟩
    cases ended with
    | true =>
      rw [decodeLoop_break hsample]
      exact Nat.add_comm 1 count
    | false =>
      have hrest := ih s'
      rw [decodeLoop_next hsample]
      simp only [List.length_cons]
      omega

/-- A loop that was not broken off has decoded everything. -/
theorem decodeLoop_left {count : ℕ} (h : (decodeLoop sample count s).ended = false) :
    (decodeLoop sample count s).left = 0 := by
  induction count generalizing s with
  | zero => rfl
  | succ count ih =>
    rcases hsample : sample s with ⟨x, s', ended⟩
    cases ended with
    | true =>
      rw [decodeLoop_break hsample] at h
      cases h
    | false =>
      rw [decodeLoop_next hsample] at h ⊢
      exact ih h

theorem decodeLoop_nonempty {count : ℕ} (h : (decodeLoop sample count s).ended = true) :
    (decodeLoop sample count s).samples ≠ [] := by
  cases count with
  | zero => cases h
  | succ count =>
    rcases hsample : sample s with ⟨x, s', ended⟩
    cases ended with
    | true =>
      rw [decodeLoop_break hsample]
      exact List.cons_ne_nil _ _
    | false =>
      rw [decodeLoop_next hsample]
      exact List.cons_ne_nil _ _

/-- A part decoded after a part that was not broken off. -/
def Decoded.followedBy (d later : Decoded) : Decoded :=
  { later with samples := d.samples ++ later.samples }

theorem decodeLoop_add (m n : ℕ) (s : Source) (h : (decodeLoop sample m s).ended = false) :
    decodeLoop sample (m + n) s =
      (decodeLoop sample m s).followedBy (decodeLoop sample n (decodeLoop sample m s).source) := by
  induction m generalizing s with
  | zero =>
    rw [Nat.zero_add]
    rfl
  | succ m ih =>
    rcases hsample : sample s with ⟨x, s', ended⟩
    cases ended with
    | true =>
      rw [decodeLoop_break hsample] at h
      cases h
    | false =>
      rw [decodeLoop_next hsample] at h
      rw [Nat.add_right_comm, decodeLoop_next hsample, decodeLoop_next hsample, ih s' h]
      rfl

/-- What a decoder does not change with a sample it never changes. -/
theorem decodeLoop_keeps {α : Type} (f : Source → α) (hkeeps : ∀ s, f (sample s).2.1 = f s) (count : ℕ)
    (s : Source) : f (decodeLoop sample count s).source = f s := by
  induction count generalizing s with
  | zero => rfl
  | succ count ih =>
    have hone := hkeeps s
    rcases hsample : sample s with ⟨x, s', ended⟩
    rw [hsample] at hone
    cases ended with
    | true =>
      rw [decodeLoop_break hsample]
      exact hone
    | false =>
      rw [decodeLoop_next hsample]
      exact (ih s').trans hone

end

/-- What chooses the decoder. -/
def Source.chooses (s : Source) : Bool × ℕ := (s.playing, s.mode)

theorem captureLoop_chooses (s : Source) : s.captureLoop.chooses = s.chooses := by
  unfold Source.captureLoop
  split_ifs <;> rfl

theorem wrapLoop_chooses (s : Source) : s.wrapLoop.chooses = s.chooses := by
  unfold Source.wrapLoop
  split_ifs <;> rfl

theorem adpcmSample_chooses (rom : List Byte) (s : Source) :
    (adpcmSample rom s).2.1.chooses = s.chooses := by
  unfold adpcmSample
  by_cases hlooping : s.looping = true
  · simp only [hlooping, if_true, wrapLoop_chooses, captureLoop_chooses]
    rfl
  · simp only [hlooping]
    rfl

theorem decode_chooses (rom : List Byte) (s : Source) (count : ℕ) :
    (s.decode rom count).source.chooses = s.chooses := by
  unfold Source.decode
  split_ifs
  · exact decodeLoop_keeps Source.chooses (adpcmSample_chooses rom) count s
  · exact decodeLoop_keeps Source.chooses (fun _ => rfl) count s
  · exact decodeLoop_keeps Source.chooses (fun _ => rfl) count s
  · rfl

/-- The decoder of a voice as one loop, if it has one. -/
theorem decode_eq_loop (rom : List Byte) (s : Source) :
    (∃ sample, ∀ s' : Source, s'.chooses = s.chooses → ∀ count, s'.decode rom count = decodeLoop sample count s') ∨
      (∀ s' : Source, s'.chooses = s.chooses → ∀ count, s'.decode rom count =
        { samples := List.replicate count 0, left := 0, source := s', ended := false }) := by
  have hsame : ∀ s' : Source, s'.chooses = s.chooses → s'.playing = s.playing ∧ s'.mode = s.mode :=
    fun s' h => ⟨congrArg Prod.fst h, congrArg Prod.snd h⟩
  by_cases hadpcm : s.playing ∧ s.mode = kModeAdpcm
  · refine .inl ⟨adpcmSample rom, fun s' h count => ?_⟩
    obtain ⟨hplaying, hmode⟩ := hsame s' h
    unfold Source.decode
    rw [hplaying, hmode, if_pos hadpcm]
    rfl
  by_cases hpcm8 : s.playing ∧ s.mode = kModePcm8
  · refine .inl ⟨pcm8Sample rom, fun s' h count => ?_⟩
    obtain ⟨hplaying, hmode⟩ := hsame s' h
    unfold Source.decode
    rw [hplaying, hmode, if_neg hadpcm, if_pos hpcm8]
    rfl
  by_cases hpcm16 : s.playing ∧ s.mode = kModePcm16
  · refine .inl ⟨pcm16Sample rom, fun s' h count => ?_⟩
    obtain ⟨hplaying, hmode⟩ := hsame s' h
    unfold Source.decode
    rw [hplaying, hmode, if_neg hadpcm, if_neg hpcm8, if_pos hpcm16]
    rfl
  · refine .inr fun s' h count => ?_
    obtain ⟨hplaying, hmode⟩ := hsame s' h
    unfold Source.decode
    rw [hplaying, hmode, if_neg hadpcm, if_neg hpcm8, if_neg hpcm16]

theorem decode_add (rom : List Byte) (s : Source) (m n : ℕ) (h : (s.decode rom m).ended = false) :
    s.decode rom (m + n) = (s.decode rom m).followedBy ((s.decode rom m).source.decode rom n) := by
  have hchooses := decode_chooses rom s m
  rcases decode_eq_loop rom s with ⟨sample, hloop⟩ | hsilent
  · rw [hloop _ hchooses]
    rw [hloop s rfl] at h ⊢
    rw [hloop s rfl]
    exact decodeLoop_add m n s h
  · rw [hsilent _ hchooses, hsilent s rfl, hsilent s rfl]
    simp [Decoded.followedBy]

theorem decode_length (rom : List Byte) (s : Source) (count : ℕ) :
    (s.decode rom count).samples.length + (s.decode rom count).left = count := by
  rcases decode_eq_loop rom s with ⟨sample, hloop⟩ | hsilent
  · rw [hloop s rfl]
    exact decodeLoop_length count s
  · rw [hsilent s rfl]
    simp

theorem decode_left {rom : List Byte} {s : Source} {count : ℕ} (h : (s.decode rom count).ended = false) :
    (s.decode rom count).left = 0 := by
  rcases decode_eq_loop rom s with ⟨sample, hloop⟩ | hsilent
  · rw [hloop s rfl] at h ⊢
    exact decodeLoop_left h
  · rw [hsilent s rfl]

theorem decode_nonempty {rom : List Byte} {s : Source} {count : ℕ} (h : (s.decode rom count).ended = true) :
    (s.decode rom count).samples ≠ [] := by
  rcases decode_eq_loop rom s with ⟨sample, hloop⟩ | hsilent
  · rw [hloop s rfl] at h ⊢
    exact decodeLoop_nonempty h
  · rw [hsilent s rfl] at h
    cases h

/-! ## Slots in parts -/

section
variable {rom : List Byte} {s : Source} {m n : ℕ}

theorem fill_zero (rom : List Byte) (s : Source) (curr : ℤ) :
    s.fill rom curr 0 = { scratch := [], source := s, stopped := false, decoded := [] } := by
  have hnone : s.decode rom 0 = { samples := [], left := 0, source := s, ended := false } := by
    unfold Source.decode
    split_ifs <;> rfl
  unfold Source.fill
  simp [hnone]

/-- A decoder that runs on. -/
theorem fill_of_not_ended (curr : ℤ) (h : (s.decode rom n).ended = false) :
    s.fill rom curr n =
      { scratch := (s.decode rom n).samples
        source := (s.decode rom n).source
        stopped := false
        decoded := if s.decodes then (s.decode rom n).samples else [] } := by
  unfold Source.fill
  simp [h, decode_left h]

/-- A decoder that reaches its stop address. -/
theorem fill_of_ended (curr : ℤ) (h : (s.decode rom n).ended = true) :
    s.fill rom curr n =
      { scratch := (s.decode rom n).samples ++
          ramp (s.decode rom n).left ((s.decode rom n).samples.getLastD 0)
        source := { (s.decode rom n).source with playing := false }
        stopped := true
        decoded := if s.decodes then (s.decode rom n).samples else [] } := by
  have hlength := decode_length rom s n
  have hsome := List.length_pos_iff.mpr (decode_nonempty h)
  have hbase : n - (s.decode rom n).left = (s.decode rom n).samples.length := by omega
  have hlast : (s.decode rom n).samples.getD ((s.decode rom n).samples.length - 1) 0 =
      (s.decode rom n).samples.getLastD 0 := by
    rw [List.getLastD_eq_getLast?, List.getLast?_eq_getElem?, List.getD_eq_getElem?_getD]
  unfold Source.fill
  simp only [h, or_true, if_true, hbase, hlast, hsome.ne', if_false, ne_eq, not_false_eq_true, decide_true]

theorem length_ramp (left : ℕ) (tail : ℤ) : (ramp left tail).length = left := by
  induction left generalizing tail with
  | zero => rfl
  | succ left ih => exact congrArg (· + 1) (ih _)

theorem length_fill (rom : List Byte) (s : Source) (curr : ℤ) (count : ℕ) :
    (s.fill rom curr count).scratch.length = count := by
  have hlength := decode_length rom s count
  cases hended : (s.decode rom count).ended with
  | false =>
    rw [decode_left hended] at hlength
    rw [fill_of_not_ended curr hended]
    exact hlength
  | true =>
    rw [fill_of_ended curr hended]
    simp only [List.length_append, length_ramp]
    exact hlength

theorem decodes_of_chooses {s' : Source} (h : s'.chooses = s.chooses) : s'.decodes = s.decodes := by
  have hplaying : s'.playing = s.playing := congrArg Prod.fst h
  have hmode : s'.mode = s.mode := congrArg Prod.snd h
  unfold Source.decodes
  rw [hplaying, hmode]

/-- Slots filled in two parts. -/
theorem fill_add (curr curr' : ℤ) (h : (s.decode rom m).ended = false) :
    let first := s.fill rom curr m
    let second := first.source.fill rom curr' n
    s.fill rom curr (m + n) =
      { scratch := first.scratch ++ second.scratch
        source := second.source
        stopped := second.stopped
        decoded := first.decoded ++ second.decoded } := by
  have hadd := decode_add rom s m n h
  have hdecodes := decodes_of_chooses (decode_chooses rom s m)
  intro first second
  have hfirst : first = _ := fill_of_not_ended curr h
  have hsource : first.source = (s.decode rom m).source := by rw [hfirst]
  cases hended : ((s.decode rom m).source.decode rom n).ended with
  | false =>
    have hboth : (s.decode rom (m + n)).ended = false := by
      rw [hadd]
      exact hended
    have hsecond : second = _ :=
      (congrArg (fun t : Source => t.fill rom curr' n) hsource).trans (fill_of_not_ended curr' hended)
    rw [fill_of_not_ended curr hboth, hfirst, hsecond, hadd, hdecodes]
    by_cases hd : s.decodes = true <;> simp [hd, Decoded.followedBy]
  | true =>
    have hboth : (s.decode rom (m + n)).ended = true := by
      rw [hadd]
      exact hended
    have hsecond : second = _ :=
      (congrArg (fun t : Source => t.fill rom curr' n) hsource).trans (fill_of_ended curr' hended)
    have hlast : ((s.decode rom m).samples ++ ((s.decode rom m).source.decode rom n).samples).getLastD 0 =
        ((s.decode rom m).source.decode rom n).samples.getLastD 0 := by
      rw [List.getLastD_eq_getLast?, List.getLastD_eq_getLast?,
        List.getLast?_append_of_ne_nil _ (decode_nonempty hended)]
    rw [fill_of_ended curr hboth, hfirst, hsecond, hadd, hdecodes]
    simp only [Decoded.followedBy, hlast]
    by_cases hd : s.decodes = true <;> simp [hd]

end

/-- A voice that does not play fills the slots with silence. -/
theorem fill_silent (rom : List Byte) {s : Source} (h : s.playing = false) (curr : ℤ) (count : ℕ) :
    s.fill rom curr count =
      { scratch := List.replicate count 0, source := s, stopped := false, decoded := [] } := by
  have hdecode : s.decode rom count =
      { samples := List.replicate count 0, left := 0, source := s, ended := false } := by
    unfold Source.decode
    simp [h]
  have hdecodes : s.decodes = false := by
    unfold Source.decodes
    rw [h, Bool.false_and]
  rw [fill_of_not_ended curr (by rw [hdecode]), hdecode, hdecodes]
  rfl

theorem sampleAt_silent (last curr : ℤ) (count : ℕ) :
    sampleAt last curr (List.replicate count 0) = sampleAt last curr [] := by
  funext i
  match i with
  | 0 => rfl
  | 1 => rfl
  | i + 2 =>
    show (List.replicate count (0 : ℤ)).getD i 0 = 0
    rw [List.getD_eq_getElem?_getD, List.getElem?_getD_replicate_default_eq]

/-! ## A block in closed form -/

/-- The samples that the frames of a block are made from. -/
def Voice.samples (rom : List Byte) (v : Voice) (frames : ℕ) : ℕ → ℤ :=
  sampleAt v.lastSample v.currSample (v.fill rom v.currSample (v.sampleCount frames)).scratch

/-- What a block has to leave. -/
structure Leaves (rom : List Byte) (v : Voice) (frames : ℕ) (b : VoiceBlock) : Prop where
  frames_eq : b.frames = framesFrom v (v.samples rom frames) v.outputPos frames
  source : b.voice.toSource = (v.fill rom v.currSample (v.sampleCount frames)).source
  outputPos : b.voice.outputPos = (v.outputPos + frames * v.outputStep) % kFracOne
  last : b.voice.lastSample = v.samples rom frames (v.sampleCount frames)
  curr : b.voice.currSample = v.samples rom frames (v.sampleCount frames + 1)
  step : b.voice.outputStep = v.outputStep
  left : b.voice.outputLeft = v.outputLeft
  right : b.voice.outputRight = v.outputRight
  stopped : b.stopped = (v.fill rom v.currSample (v.sampleCount frames)).stopped
  decoded : b.decoded = (v.fill rom v.currSample (v.sampleCount frames)).decoded
  consumed : v.playing = true → b.scratchIndex = b.newSamples

theorem Voice.generate_leaves (rom : List Byte) (v : Voice) (frames : ℕ) (hidle : ¬v.Idle)
    (hcount : v.playing = true → v.sampleCount frames < kMaxSampleChunk) :
    Leaves rom v frames (v.generate rom frames) := by
  have hnotIdle : ¬(!v.playing ∧ v.currSample = 0 ∧ v.lastSample = 0) := by
    simpa [Voice.Idle] using hidle
  obtain ⟨count, hle, heq, hlow, hend⟩ := emitWhile_eq v v.lastSample v.currSample frames v.outputPos
  have hfirst := emitWhile_frames v (v.samples rom frames) hlow
  have hsplit : framesFrom v (v.samples rom frames) v.outputPos frames =
      framesFrom v (v.samples rom frames) v.outputPos count ++
        framesFrom v (v.samples rom frames) (v.outputPos + count * v.outputStep) (frames - count) := by
    rw [← framesFrom_add, Nat.add_sub_cancel' hle]
  have hphase : v.outputPos + frames * v.outputStep =
      v.outputPos + count * v.outputStep + (frames - count) * v.outputStep := by
    rw [Nat.add_assoc, ← Nat.add_mul, Nat.add_sub_cancel' hle]
  by_cases hnext : v.outputPos + count * v.outputStep < kFracOne
  · -- the sample in flight lasts to the end of the block
    have hall : count = frames := hend.resolve_right (Nat.not_le_of_lt hnext)
    subst hall
    have hzero : v.sampleCount count = 0 := Nat.div_eq_of_lt hnext
    have hblock : v.generate rom count =
        { frames := (List.range count).map fun k =>
            emit v v.lastSample v.currSample (v.outputPos + k * v.outputStep)
          voice :=
            { v with outputPos := v.outputPos + count * v.outputStep, outputPos_le := hnext.le } } := by
      unfold Voice.generate
      rw [if_neg hnotIdle]
      simp only [heq, hnext, dif_pos]
    have hfill := fill_zero rom v.toSource v.currSample
    rw [hblock]
    constructor
    · exact hfirst
    · rw [hzero, hfill]
    · exact (Nat.mod_eq_of_lt hnext).symm
    · rw [hzero]
      rfl
    · rw [hzero]
      rfl
    · rfl
    · rfl
    · rfl
    · rw [hzero, hfill]
    · rw [hzero, hfill]
    · exact fun _ => rfl
  · -- the rest of the block is made from the slots
    obtain ⟨carried, hcarried⟩ : ∃ carried, v.outputPos + count * v.outputStep = kFracOne * 1 + carried :=
      ⟨v.outputPos + count * v.outputStep - kFracOne, by omega⟩
    have hsub : v.outputPos + count * v.outputStep - kFracOne = carried := by omega
    have hlt : carried < kFracOne := by
      have hpos := v.outputPos_le
      have hbound := emitWhile_outputPos_lt v v.lastSample v.currSample frames v.outputPos
        (lt_of_le_of_lt hpos (by decide))
      rw [heq] at hbound
      have hbound' : v.outputPos + count * v.outputStep < 2 * kFracOne := hbound
      omega
    generalize hnew : newSamples carried (frames - count) v.outputStep = new
    have hwhole : 1 + (carried + (frames - count) * v.outputStep) / kFracOne = v.sampleCount frames := by
      unfold Voice.sampleCount
      rw [hphase, hcarried, Nat.add_assoc (kFracOne * 1), Nat.mul_add_div (by decide)]
    have hplays : v.playing = true → new = v.sampleCount frames := by
      intro hplaying
      have hexact : (carried + (frames - count) * v.outputStep + kFracOne) / kFracOne =
          v.sampleCount frames := by
        rw [Nat.add_div_right _ (by decide), ← hwhole, Nat.add_comm]
      rw [← hnew, newSamples_eq (hexact ▸ hcount hplaying), hexact]
    -- without a decoder any number of silent slots does
    have hfill : (v.fill rom v.currSample new).source =
          (v.fill rom v.currSample (v.sampleCount frames)).source ∧
        (v.fill rom v.currSample new).stopped =
          (v.fill rom v.currSample (v.sampleCount frames)).stopped ∧
        (v.fill rom v.currSample new).decoded =
          (v.fill rom v.currSample (v.sampleCount frames)).decoded ∧
        sampleAt v.lastSample v.currSample (v.fill rom v.currSample new).scratch =
          v.samples rom frames := by
      cases hplaying : v.playing with
      | true =>
        rw [hplays hplaying]
        exact ⟨rfl, rfl, rfl, rfl⟩
      | false =>
        unfold Voice.samples
        rw [fill_silent rom hplaying, fill_silent rom hplaying, sampleAt_silent, sampleAt_silent]
        exact ⟨rfl, rfl, rfl, rfl⟩
    obtain ⟨hsource, hstopped, hdecoded, hsamples⟩ := hfill
    have hslots := nextScratch_eq (v.fill rom v.currSample new).scratch 0
    rw [Nat.zero_min] at hslots
    have hwalk := mixLoop_eq v v.lastSample v.currSample (v.fill rom v.currSample new).scratch
      (frames - count) (frames - count) carried 1 (le_refl _) hlt
    have hone : sampleAt v.lastSample v.currSample (v.fill rom v.currSample new).scratch 1 = v.currSample := rfl
    have htwo : sampleAt v.lastSample v.currSample (v.fill rom v.currSample new).scratch (1 + 1) =
        (v.fill rom v.currSample new).scratch.getD 0 0 := rfl
    simp only [hone, htwo] at hwalk
    simp only [hsamples, hwhole] at hwalk
    have hframes : framesFrom v (fun i => v.samples rom frames (1 + i)) carried (frames - count) =
        framesFrom v (v.samples rom frames) (v.outputPos + count * v.outputStep) (frames - count) := by
      rw [hcarried, framesFrom_shift]
    have hmod : (carried + (frames - count) * v.outputStep) % kFracOne =
        (v.outputPos + frames * v.outputStep) % kFracOne := by
      rw [hphase, hcarried, Nat.add_assoc (kFracOne * 1), Nat.mul_add_mod]
    rw [hframes, hmod] at hwalk
    have hmix : mixLoop v ((v.fill rom v.currSample new).scratch ++ List.replicate kScratchSlack 0)
        (frames - count) (frames - count) carried v.currSample
        (nextScratch ((v.fill rom v.currSample new).scratch ++ List.replicate kScratchSlack 0) 0).1
        (nextScratch ((v.fill rom v.currSample new).scratch ++ List.replicate kScratchSlack 0) 0).2 =
        { frames := framesFrom v (v.samples rom frames) (v.outputPos + count * v.outputStep) (frames - count)
          outputPos := (v.outputPos + frames * v.outputStep) % kFracOne
          prev := v.samples rom frames (v.sampleCount frames)
          curr := v.samples rom frames (v.sampleCount frames + 1)
          scratchIndex :=
            min (v.sampleCount frames) (slotsOf (v.fill rom v.currSample new).scratch).length } := by
      change mixLoop v (slotsOf (v.fill rom v.currSample new).scratch) (frames - count) (frames - count)
        carried v.currSample (nextScratch (slotsOf (v.fill rom v.currSample new).scratch) 0).1
        (nextScratch (slotsOf (v.fill rom v.currSample new).scratch) 0).2 = _
      rw [hslots]
      exact hwalk
    unfold Voice.generate
    rw [if_neg hnotIdle]
    simp only [heq, hnext, dif_neg, not_false_eq_true, hsub, hnew, hmix]
    constructor
    · rw [hsplit]
      exact congrArg (· ++ _) hfirst
    · exact hsource
    · rfl
    · rfl
    · rfl
    · rfl
    · rfl
    · rfl
    · exact hstopped
    · exact hdecoded
    · intro hplaying
      show min (v.sampleCount frames) (slotsOf (v.fill rom v.currSample new).scratch).length = new
      rw [length_slotsOf, length_fill, hplays hplaying]
      exact Nat.min_eq_left (Nat.le_add_right _ _)

/-! ## A block cut in two -/

/-- The decoder does not reach the stop address within the samples of so many frames. -/
def Voice.RunsOn (rom : List Byte) (v : Voice) (frames : ℕ) : Prop :=
  (v.decode rom (v.sampleCount frames)).ended = false

/-- A whole block is cut into two: the frames and the decoded samples are those of the parts, and
the voice has come as far. -/
structure CutsInto (whole first second : VoiceBlock) : Prop where
  frames : whole.frames = first.frames ++ second.frames
  decoded : whole.decoded = first.decoded ++ second.decoded
  source : whole.voice.toSource = second.voice.toSource

section
variable {rom : List Byte} {v : Voice} {m n frames : ℕ}

theorem idle_generate (hidle : v.Idle) (frames : ℕ) :
    v.generate rom frames =
      { frames := List.replicate frames (0, 0)
        voice := { v with outputPos := kFracOne, outputPos_le := le_refl _ } } := by
  unfold Voice.generate
  rw [if_pos]
  simpa [Voice.Idle] using hidle

theorem generate_add_idle (hidle : v.Idle) (m n : ℕ) :
    CutsInto (v.generate rom (m + n)) (v.generate rom m) ((v.generate rom m).voice.generate rom n) := by
  have hidle' : (v.generate rom m).voice.Idle := by
    rw [idle_generate hidle]
    exact hidle
  rw [idle_generate hidle', idle_generate hidle, idle_generate hidle]
  constructor
  · show List.replicate (m + n) (0, 0) = List.replicate m (0, 0) ++ List.replicate n (0, 0)
    rw [List.replicate_append_replicate]
  · rfl
  · rfl

theorem framesFrom_voice {v' : Voice} (hstep : v'.outputStep = v.outputStep)
    (hleft : v'.outputLeft = v.outputLeft) (hright : v'.outputRight = v.outputRight) (samples : ℕ → ℤ)
    (phase count : ℕ) : framesFrom v' samples phase count = framesFrom v samples phase count := by
  unfold framesFrom frameAt emit
  rw [hstep, hleft, hright]

/-- The samples of the whole block are those of the first part, and from its end on those of the
second part. -/
theorem sampleAt_append (last curr : ℤ) (first second : List ℤ) :
    (∀ i ≤ first.length + 1, sampleAt last curr (first ++ second) i = sampleAt last curr first i) ∧
      ∀ i, sampleAt last curr (first ++ second) (first.length + i) =
        sampleAt (sampleAt last curr first first.length) (sampleAt last curr first (first.length + 1)) second i := by
  have hbefore : ∀ i ≤ first.length + 1,
      sampleAt last curr (first ++ second) i = sampleAt last curr first i := by
    intro i hi
    match i with
    | 0 => rfl
    | 1 => rfl
    | i + 2 => exact List.getD_append _ _ _ _ (by omega)
  refine ⟨hbefore, fun i => ?_⟩
  match i with
  | 0 => exact hbefore _ (Nat.le_succ _)
  | 1 => exact hbefore _ (le_refl _)
  | i + 2 =>
    show (first ++ second).getD (first.length + i) 0 = second.getD i 0
    rw [List.getD_append_right _ _ _ _ (Nat.le_add_right _ _), Nat.add_sub_cancel_left]

/-- Where the second block begins. -/
theorem Leaves.phase {first : VoiceBlock} (h : Leaves rom v m first) :
    v.outputPos + m * v.outputStep = kFracOne * v.sampleCount m + first.voice.outputPos := by
  rw [h.outputPos]
  exact (Nat.div_add_mod _ _).symm

theorem Leaves.sampleCount_add {first : VoiceBlock} (h : Leaves rom v m first) (n : ℕ) :
    v.sampleCount (m + n) = v.sampleCount m + first.voice.sampleCount n := by
  show (v.outputPos + (m + n) * v.outputStep) / kFracOne = v.sampleCount m +
    (first.voice.outputPos + n * first.voice.outputStep) / kFracOne
  rw [Nat.add_mul, ← Nat.add_assoc, h.phase, Nat.add_assoc, Nat.mul_add_div (by decide), h.step]

theorem Leaves.playing {first : VoiceBlock} (h : Leaves rom v m first) (hruns : v.RunsOn rom m) :
    first.voice.playing = v.playing := by
  have hsource := h.source
  rw [fill_of_not_ended v.currSample hruns] at hsource
  show first.voice.toSource.playing = _
  rw [hsource]
  exact congrArg Prod.fst (decode_chooses rom v.toSource (v.sampleCount m))

theorem generate_add_loud (hloud : ¬v.Idle) (hruns : v.RunsOn rom m)
    (hcount : v.playing = true → v.sampleCount (m + n) < kMaxSampleChunk) :
    CutsInto (v.generate rom (m + n)) (v.generate rom m) ((v.generate rom m).voice.generate rom n) := by
  have hless : v.sampleCount m ≤ v.sampleCount (m + n) := by
    unfold Voice.sampleCount
    apply Nat.div_le_div_right
    rw [Nat.add_mul]
    omega
  have hwhole := v.generate_leaves rom (m + n) hloud hcount
  have hfirst := v.generate_leaves rom m hloud fun h => lt_of_le_of_lt hless (hcount h)
  generalize (v.generate rom m) = first at hfirst ⊢
  have hsum := hfirst.sampleCount_add n
  have hfill := fill_add v.currSample first.voice.currSample hruns (n := first.voice.sampleCount n)
  have hlength := length_fill rom v.toSource v.currSample (v.sampleCount m)
  obtain ⟨hbefore, hafter⟩ := sampleAt_append v.lastSample v.currSample
    (v.fill rom v.currSample (v.sampleCount m)).scratch
    (first.voice.fill rom first.voice.currSample (first.voice.sampleCount n)).scratch
  rw [hlength] at hbefore hafter
  simp only [← hfirst.source] at hfill
  rw [← hsum] at hfill
  have hsamples : v.samples rom (m + n) = sampleAt v.lastSample v.currSample
      ((v.fill rom v.currSample (v.sampleCount m)).scratch ++
        (first.voice.fill rom first.voice.currSample (first.voice.sampleCount n)).scratch) := by
    unfold Voice.samples
    rw [hfill]
  have hframes : framesFrom v (v.samples rom (m + n)) v.outputPos (m + n) =
      first.frames ++ framesFrom v (first.voice.samples rom n) first.voice.outputPos n := by
    rw [framesFrom_add, hfirst.phase, framesFrom_shift, hfirst.frames_eq]
    congr 1
    · apply framesFrom_congr
      intro i hi
      rw [hsamples]
      exact hbefore i hi
    · congr 1
      funext i
      rw [hsamples, hafter]
      unfold Voice.samples
      rw [hfirst.last, hfirst.curr]
      rfl
  have hplaying := hfirst.playing hruns
  by_cases hidle : first.voice.Idle
  · -- the whole block emits silence where the second part emits nothing
    obtain ⟨hstill, hcurr, hlast⟩ := hidle
    have hlow : first.voice.outputPos < kFracOne := by
      rw [hfirst.outputPos]
      exact Nat.mod_lt _ (by decide)
    have hsilent : ∀ i, first.voice.samples rom n i = 0 := by
      intro i
      unfold Voice.samples
      rw [fill_silent rom hstill, sampleAt_silent, hlast, hcurr]
      match i with
      | 0 => rfl
      | 1 => rfl
      | i + 2 => rfl
    have hzeros : framesFrom v (first.voice.samples rom n) first.voice.outputPos n =
        List.replicate n (0, 0) := framesFrom_silent v _ n fun i => hsilent _
    rw [idle_generate ⟨hstill, hcurr, hlast⟩]
    constructor
    · rw [hwhole.frames_eq, hframes, hzeros]
    · rw [hwhole.decoded, hfill, hfirst.decoded, fill_silent rom hstill]
    · rw [hwhole.source, hfill, fill_silent rom hstill]
  · have hsecond := first.voice.generate_leaves rom n hidle fun h => by
      have hbound := hcount (hplaying ▸ h)
      omega
    constructor
    · rw [hwhole.frames_eq, hframes, hsecond.frames_eq,
        framesFrom_voice hfirst.step hfirst.left hfirst.right]
    · rw [hwhole.decoded, hfill, hfirst.decoded, hsecond.decoded]
    · rw [hwhole.source, hfill, hsecond.source]

/-- No sample is made and dropped at the end of a block. -/
theorem generate_consumed (hcount : v.playing = true → v.sampleCount frames < kMaxSampleChunk)
    (hplaying : v.playing = true) :
    (v.generate rom frames).scratchIndex = (v.generate rom frames).newSamples := by
  have hloud : ¬v.Idle := fun hidle => by
    rw [hidle.1] at hplaying
    cases hplaying
  exact (v.generate_leaves rom frames hloud hcount).consumed hplaying

theorem length_generate (hcount : v.playing = true → v.sampleCount frames < kMaxSampleChunk) :
    (v.generate rom frames).frames.length = frames := by
  by_cases hidle : v.Idle
  · rw [idle_generate hidle]
    exact List.length_replicate
  · rw [(v.generate_leaves rom frames hidle hcount).frames_eq, length_framesFrom]

theorem generate_add (hruns : v.playing = true → v.RunsOn rom m)
    (hcount : v.playing = true → v.sampleCount (m + n) < kMaxSampleChunk) :
    CutsInto (v.generate rom (m + n)) (v.generate rom m) ((v.generate rom m).voice.generate rom n) := by
  by_cases hidle : v.Idle
  · exact generate_add_idle hidle m n
  apply generate_add_loud hidle _ hcount
  cases hplaying : v.playing with
  | true => exact hruns hplaying
  | false =>
    unfold Voice.RunsOn Source.decode
    simp [hplaying]

end

/-! ## The device -/

namespace Device

variable {d : Device} {m n : ℕ}

theorem voiceBlock_zero (d : Device) (index : Fin 8) :
    d.voiceBlock index 0 = { frames := [], voice := d.voices index } := by
  unfold voiceBlock
  rw [if_pos (.inl rfl)]
  rfl

/-- Generating no frame leaves the voices. -/
theorem generate_zero_voices (d : Device) : (d.generate 0).2.voices = d.voices := by
  funext index
  show (d.voiceBlock index 0).voice = _
  rw [voiceBlock_zero]

/-- What a device does with its voices depends on nothing else. -/
theorem voiceBlock_congr {d d' : Device} (hrom : d'.rom = d.rom) (index : Fin 8)
    (hvoice : d'.voices index = d.voices index) (frames : ℕ) :
    d'.voiceBlock index frames = d.voiceBlock index frames := by
  unfold voiceBlock
  rw [hrom, hvoice]

/-- The samples decoded for a block do not reach the stop address of a voice that plays. -/
def RunsOn (d : Device) (frames : ℕ) : Prop :=
  ∀ index, frames ≠ 0 → d.rom ≠ [] → (d.voices index).playing = true →
    (d.voices index).RunsOn d.rom frames

/-- The samples decoded for a block fit its chunk. -/
def FitsChunk (d : Device) (frames : ℕ) : Prop :=
  ∀ index, d.rom ≠ [] → (d.voices index).playing = true →
    (d.voices index).sampleCount frames < kMaxSampleChunk

theorem voiceBlock_add (hruns : d.RunsOn m) (hcount : d.FitsChunk (m + n)) (index : Fin 8) :
    CutsInto (d.voiceBlock index (m + n)) (d.voiceBlock index m) ((d.generate m).2.voiceBlock index n) := by
  by_cases hm : m = 0
  · subst hm
    have hsame : (d.generate 0).2.voiceBlock index n = d.voiceBlock index n :=
      voiceBlock_congr rfl index (congrFun d.generate_zero_voices index) n
    rw [hsame, voiceBlock_zero, Nat.zero_add]
    exact ⟨rfl, rfl, rfl⟩
  by_cases hrom : d.rom = []
  · have hblock : ∀ d' : Device, d'.rom = [] → ∀ frames, d'.voiceBlock index frames =
        { frames := List.replicate frames (0, 0), voice := d'.voices index } := by
      intro d' hrom' frames
      unfold voiceBlock
      rw [if_pos (.inr hrom')]
    have hvoice : (d.generate m).2.voices index = d.voices index := by
      show (d.voiceBlock index m).voice = _
      rw [hblock d hrom]
    rw [hblock d hrom, hblock d hrom, hblock (d.generate m).2 hrom, hvoice]
    constructor
    · show List.replicate (m + n) (0, 0) = List.replicate m (0, 0) ++ List.replicate n (0, 0)
      rw [List.replicate_append_replicate]
    · rfl
    · rfl
  have hfirst : d.voiceBlock index m = (d.voices index).generate d.rom m := if_neg (by simp [hm, hrom])
  have hwhole : d.voiceBlock index (m + n) = (d.voices index).generate d.rom (m + n) :=
    if_neg (by simp [hm, hrom])
  by_cases hn : n = 0
  · subst hn
    rw [voiceBlock_zero]
    refine ⟨(List.append_nil _).symm, (List.append_nil _).symm, rfl⟩
  have hsecond : (d.generate m).2.voiceBlock index n =
      ((d.voices index).generate d.rom m).voice.generate d.rom n := by
    rw [← hfirst]
    exact if_neg (by
      show ¬(n = 0 ∨ d.rom = [])
      simp [hn, hrom])
  rw [hwhole, hfirst, hsecond]
  exact generate_add (hruns index hm hrom) (hcount index hrom)

theorem fitsChunk_mono (h : d.FitsChunk (m + n)) : d.FitsChunk m := by
  intro index hrom hplaying
  refine lt_of_le_of_lt ?_ (h index hrom hplaying)
  unfold Voice.sampleCount
  apply Nat.div_le_div_right
  rw [Nat.add_mul]
  omega

theorem length_voiceBlock (hcount : d.FitsChunk m) (index : Fin 8) :
    (d.voiceBlock index m).frames.length = m := by
  unfold voiceBlock
  split_ifs with hnothing
  · exact List.length_replicate
  · exact length_generate (hcount index fun hrom => hnothing (.inr hrom))

/-- The samples that a block takes are the samples it makes. -/
def Consumes (d : Device) (frames : ℕ) : Prop :=
  ∀ index, (d.voices index).playing = true →
    (d.voiceBlock index frames).scratchIndex = (d.voiceBlock index frames).newSamples

theorem consumes_of_fitsChunk (hcount : d.FitsChunk m) : d.Consumes m := by
  intro index hplaying
  unfold voiceBlock
  split_ifs with hnothing
  · rfl
  · exact generate_consumed (hcount index fun hrom => hnothing (.inr hrom)) hplaying

/-- After the first block the second one fits, too. -/
theorem fitsChunk_generate (hruns : d.RunsOn m) (hcount : d.FitsChunk (m + n)) :
    (d.generate m).2.FitsChunk n := by
  intro index hrom hplaying
  have hlast : d.FitsChunk n := fitsChunk_mono (Nat.add_comm m n ▸ hcount)
  have hvoice : (d.generate m).2.voices index = (d.voiceBlock index m).voice := rfl
  rw [hvoice] at hplaying ⊢
  unfold voiceBlock at hplaying ⊢
  split_ifs at hplaying ⊢ with hnothing
  · exact hlast index hrom hplaying
  rw [not_or] at hnothing
  by_cases hidle : (d.voices index).Idle
  · rw [idle_generate hidle] at hplaying
    exact absurd (hplaying.symm.trans hidle.1) (by simp)
  have hleaves := (d.voices index).generate_leaves d.rom m hidle (fitsChunk_mono hcount index hrom)
  have hruns' : (d.voices index).RunsOn d.rom m := by
    cases hstill : (d.voices index).playing with
    | true => exact hruns index hnothing.1 hrom hstill
    | false =>
      unfold Voice.RunsOn Source.decode
      simp [hstill]
  have hbound := hcount index hrom (hleaves.playing hruns' ▸ hplaying)
  rw [hleaves.sampleCount_add] at hbound
  omega

/-- The output does not depend on how it is cut into blocks, and each voice takes the same decoded
samples, none of which is dropped between the blocks. -/
theorem generate_in_two_blocks (d : Device) (m n : ℕ) (hruns : d.RunsOn m) (hcount : d.FitsChunk (m + n)) :
    (d.generate (m + n)).1 = (d.generate m).1 ++ ((d.generate m).2.generate n).1 ∧
      (∀ index, CutsInto (d.voiceBlock index (m + n)) (d.voiceBlock index m)
        ((d.generate m).2.voiceBlock index n)) ∧
      d.Consumes (m + n) ∧ d.Consumes m ∧ (d.generate m).2.Consumes n := by
  have hcuts := voiceBlock_add hruns hcount
  have hlength := length_voiceBlock (fitsChunk_mono hcount)
  refine ⟨?_, hcuts, consumes_of_fitsChunk hcount, consumes_of_fitsChunk (fitsChunk_mono hcount),
    consumes_of_fitsChunk (fitsChunk_generate hruns hcount)⟩
  show (List.range (m + n)).flatMap (d.outputFrame (m + n)) =
    (List.range m).flatMap (d.outputFrame m) ++ (List.range n).flatMap ((d.generate m).2.outputFrame n)
  rw [List.range_add, List.flatMap_append]
  congr 1
  · apply List.flatMap_congr
    intro frame hframe
    have hlt := List.mem_range.mp hframe
    unfold outputFrame
    have hparts : ∀ index, (d.voiceBlock index (m + n)).frames.getD frame (0, 0) =
        (d.voiceBlock index m).frames.getD frame (0, 0) := by
      intro index
      rw [(hcuts index).frames, List.getD_append _ _ _ _ (by rw [hlength]; exact hlt)]
    simp only [hparts]
  · rw [List.flatMap_map]
    apply List.flatMap_congr
    intro frame _
    unfold outputFrame
    have hparts : ∀ index, (d.voiceBlock index (m + n)).frames.getD (m + frame) (0, 0) =
        ((d.generate m).2.voiceBlock index n).frames.getD frame (0, 0) := by
      intro index
      rw [(hcuts index).frames, List.getD_append_right _ _ _ _ (by rw [hlength]; omega), hlength,
        Nat.add_sub_cancel_left]
    simp only [hparts]

/-- A device with one voice that plays ADPCM. -/
def oneVoice : Device where
  rom := [0x17, 0x52, 0x9C, 0x30]
  voices := fun index =>
    if index = 0 then
      { playing := true, keyon := true, mode := kModeAdpcm, stop := 8, step := 0x7F, outputLeft := 200
        outputRight := 90, outputStep := 200 }
    else {}

theorem generate_in_two_blocks_oneVoice :
    (oneVoice.generate 5).1 = (oneVoice.generate 3).1 ++ ((oneVoice.generate 3).2.generate 2).1 := by
  have hruns : oneVoice.RunsOn 3 := by
    unfold RunsOn Voice.RunsOn
    decide +kernel
  have hcount : oneVoice.FitsChunk (3 + 2) := by
    unfold FitsChunk
    decide +kernel
  exact (generate_in_two_blocks oneVoice 3 2 hruns hcount).1

end Device

end Repiu.Sound.Ymz280b
