import Mathlib.Algebra.Order.Floor.Div
import Mathlib.Data.List.Chain
import Mathlib.Tactic.Ring

/-!
# The PIT schedule

The conversions between elapsed host time and ticks of channel 0, and the
schedule that turns polls of the host clock into ranges of due ticks.
-/

namespace Repiu.Hle

/-- The input clock of the PIT. -/
def kInputClockHz : UInt64 := 1193280

/-- The divisor that a reload value of zero stands for. -/
def kDefaultDivisor : UInt32 := 65536

def kNanosecondsPerSecond : UInt64 := 1000000000

/-- The published configuration of channel 0. -/
structure PitChannel0Snapshot where
  generation : UInt32 := 0
  divisor : UInt32 := 65536
deriving DecidableEq

/-- The ticks that a poll reports. -/
structure PitIrqDueRange where
  epochNanoseconds : UInt64 := 0
  firstTickOrdinal : UInt64 := 0
  tickCount : UInt64 := 0
  divisor : UInt32 := 65536
deriving DecidableEq

structure PitIrqSchedule where
  generation : UInt32 := 0
  epochNanoseconds : UInt64 := 0
  emittedTickCount : UInt64 := 0
  initialized : Bool := false
deriving DecidableEq

/-- The divisor in force. -/
def effectiveDivisor (divisor : UInt32) : UInt32 := if divisor = 0 then kDefaultDivisor else divisor

def pitTickCountForElapsed (elapsedNanoseconds : UInt64) (divisor : UInt32) : UInt64 :=
  let divisor := effectiveDivisor divisor
  let wholeSeconds := elapsedNanoseconds / kNanosecondsPerSecond
  let remainingNanoseconds := elapsedNanoseconds % kNanosecondsPerSecond
  let inputClocks := wholeSeconds * kInputClockHz +
    remainingNanoseconds * kInputClockHz / kNanosecondsPerSecond
  inputClocks / divisor.toUInt64

def pitElapsedNanosecondsForTick (tickOrdinal : UInt64) (divisor : UInt32) : UInt64 :=
  let divisor := effectiveDivisor divisor
  if tickOrdinal = 0 then 0
  else
    let inputClocks := tickOrdinal * divisor.toUInt64
    let wholeSeconds := inputClocks / kInputClockHz
    let remainingClocks := inputClocks % kInputClockHz
    let numerator := remainingClocks * kNanosecondsPerSecond
    wholeSeconds * kNanosecondsPerSecond + (numerator + kInputClockHz - 1) / kInputClockHz

namespace PitIrqSchedule

/-- One poll: the schedule after it, and the range it reports. The number of due ticks is the
count of the range. -/
def poll (s : PitIrqSchedule) (snapshot : PitChannel0Snapshot) (elapsedNanoseconds : UInt64) :
    PitIrqSchedule × PitIrqDueRange :=
  if !s.initialized || snapshot.generation ≠ s.generation then
    ({ initialized := true, generation := snapshot.generation, epochNanoseconds := elapsedNanoseconds,
       emittedTickCount := 0 }, {})
  else if elapsedNanoseconds < s.epochNanoseconds then
    ({ s with epochNanoseconds := elapsedNanoseconds, emittedTickCount := 0 }, {})
  else
    let tickCount := pitTickCountForElapsed (elapsedNanoseconds - s.epochNanoseconds) snapshot.divisor
    if tickCount ≤ s.emittedTickCount then (s, {})
    else
      ({ s with emittedTickCount := tickCount },
        { epochNanoseconds := s.epochNanoseconds
          firstTickOrdinal := s.emittedTickCount + 1
          tickCount := tickCount - s.emittedTickCount
          divisor := snapshot.divisor })

def nanosecondsUntilNextTick (s : PitIrqSchedule) (snapshot : PitChannel0Snapshot)
    (elapsedNanoseconds : UInt64) : UInt64 :=
  if !s.initialized || snapshot.generation ≠ s.generation then 0
  else
    let nextTickOffset := pitElapsedNanosecondsForTick (s.emittedTickCount + 1) snapshot.divisor
    -- saturates where the tick lies past the end of the clock
    let nextTickElapsed :=
      if s.epochNanoseconds > UInt64.ofNat (2 ^ 64 - 1) - nextTickOffset then UInt64.ofNat (2 ^ 64 - 1)
      else s.epochNanoseconds + nextTickOffset
    if elapsedNanoseconds ≥ nextTickElapsed then 0
    else nextTickElapsed - elapsedNanoseconds

/-- Polls in a row: the schedule after them, and the ranges they report. -/
def pollAll (snapshot : PitChannel0Snapshot) (s : PitIrqSchedule) :
    List UInt64 → PitIrqSchedule × List PitIrqDueRange
  | [] => (s, [])
  | elapsed :: rest =>
    let polled := s.poll snapshot elapsed
    let after := pollAll snapshot polled.1 rest
    (after.1, polled.2 :: after.2)

end PitIrqSchedule

/-- The ordinals of the ticks in a range. -/
def PitIrqDueRange.ordinals (r : PitIrqDueRange) : List ℕ :=
  List.range' r.firstTickOrdinal.toNat r.tickCount.toNat

/-! ## Ticks and times over the naturals -/

/-- The ticks in `t` nanoseconds. -/
def ticksIn (t divisor : ℕ) : ℕ := t * 1193280 / 1000000000 / divisor

/-- The time of a tick. -/
def tickTime (ordinal divisor : ℕ) : ℕ := (ordinal * divisor * 1000000000) ⌈/⌉ 1193280

theorem ticksIn_zero (divisor : ℕ) : ticksIn 0 divisor = 0 := by
  simp [ticksIn]

theorem ticksIn_mono {t u : ℕ} (h : t ≤ u) (divisor : ℕ) : ticksIn t divisor ≤ ticksIn u divisor := by
  apply Nat.div_le_div_right
  apply Nat.div_le_div_right
  exact Nat.mul_le_mul_right _ h

/-- The two conversions are adjoint. -/
theorem tickTime_le_iff {ordinal divisor t : ℕ} (hd : 0 < divisor) :
    tickTime ordinal divisor ≤ t ↔ ordinal ≤ ticksIn t divisor := by
  rw [tickTime, ceilDiv_le_iff_le_mul (by decide), ticksIn, Nat.le_div_iff_mul_le hd,
    Nat.le_div_iff_mul_le (by decide), Nat.mul_comm t]

/-! ## The 64-bit conversions -/

theorem effectiveDivisor_pos (divisor : UInt32) : 0 < (effectiveDivisor divisor).toNat := by
  unfold effectiveDivisor
  split
  case isTrue h => decide
  case isFalse h =>
    rw [← UInt32.toNat_inj] at h
    exact Nat.pos_of_ne_zero h

/-- No sum or product of the tick count wraps, at any time. -/
theorem pitTickCountForElapsed_fits (elapsed : UInt64) :
    elapsed.toNat % 1000000000 * 1193280 < 2 ^ 64 ∧
    elapsed.toNat / 1000000000 * 1193280 + elapsed.toNat % 1000000000 * 1193280 / 1000000000 < 2 ^ 64 := by
  have := elapsed.toNat_lt
  omega

theorem toNat_pitTickCountForElapsed (elapsed : UInt64) (divisor : UInt32) :
    (pitTickCountForElapsed elapsed divisor).toNat = ticksIn elapsed.toNat (effectiveDivisor divisor).toNat := by
  obtain ⟨hproduct, hsum⟩ := pitTickCountForElapsed_fits elapsed
  have hclocks : (elapsed / kNanosecondsPerSecond * kInputClockHz +
      elapsed % kNanosecondsPerSecond * kInputClockHz / kNanosecondsPerSecond).toNat =
      elapsed.toNat * 1193280 / 1000000000 := by
    have hns : kNanosecondsPerSecond.toNat = 1000000000 := rfl
    have hhz : kInputClockHz.toNat = 1193280 := rfl
    have hwhole := (Nat.le_add_right _ _).trans_lt hsum
    simp only [UInt64.toNat_add, UInt64.toNat_mul, UInt64.toNat_div, UInt64.toNat_mod, hns, hhz]
    rw [Nat.mod_eq_of_lt hproduct, Nat.mod_eq_of_lt hwhole, Nat.mod_eq_of_lt hsum]
    omega
  rw [pitTickCountForElapsed]
  simp only [UInt64.toNat_div, hclocks, UInt32.toNat_toUInt64]
  rfl

/-- No sum or product of the time of a tick wraps up to the last tick that the clock can show. -/
theorem pitElapsedNanosecondsForTick_fits {ordinal : ℕ} {divisor : ℕ}
    (h : tickTime ordinal divisor < 2 ^ 64) :
    ordinal * divisor < 2 ^ 64 ∧
    ordinal * divisor % 1193280 * 1000000000 + 1193280 < 2 ^ 64 ∧
    ordinal * divisor / 1193280 * 1000000000 +
      (ordinal * divisor % 1193280 * 1000000000 + 1193280 - 1) / 1193280 = tickTime ordinal divisor := by
  rw [tickTime, Nat.ceilDiv_eq_add_pred_div] at h ⊢
  omega

theorem toNat_pitElapsedNanosecondsForTick {ordinal : UInt64} {divisor : UInt32}
    (h : tickTime ordinal.toNat (effectiveDivisor divisor).toNat < 2 ^ 64) :
    (pitElapsedNanosecondsForTick ordinal divisor).toNat =
      tickTime ordinal.toNat (effectiveDivisor divisor).toNat := by
  obtain ⟨hclocks, hnumerator, htime⟩ := pitElapsedNanosecondsForTick_fits h
  unfold pitElapsedNanosecondsForTick
  split
  case isTrue hzero =>
    rw [hzero]
    simp [tickTime]
  case isFalse hzero =>
    have hns : kNanosecondsPerSecond.toNat = 1000000000 := rfl
    have hhz : kInputClockHz.toNat = 1193280 := rfl
    have hproduct : (ordinal * (effectiveDivisor divisor).toUInt64).toNat =
        ordinal.toNat * (effectiveDivisor divisor).toNat := by
      rw [UInt64.toNat_mul, UInt32.toNat_toUInt64, Nat.mod_eq_of_lt hclocks]
    have hround : (ordinal * (effectiveDivisor divisor).toUInt64 % kInputClockHz * kNanosecondsPerSecond +
        kInputClockHz - 1).toNat =
        ordinal.toNat * (effectiveDivisor divisor).toNat % 1193280 * 1000000000 + 1193280 - 1 := by
      simp only [UInt64.toNat_sub, UInt64.toNat_add, UInt64.toNat_mul, UInt64.toNat_mod, UInt64.toNat_one,
        hproduct, hns, hhz]
      rw [Nat.mod_eq_of_lt ((Nat.le_add_right _ _).trans_lt hnumerator), Nat.mod_eq_of_lt hnumerator]
      omega
    rw [← htime] at h
    simp only [UInt64.toNat_add, UInt64.toNat_div, hround]
    simp only [UInt64.toNat_mul, UInt64.toNat_div, hns, hhz, hproduct]
    rw [Nat.mod_eq_of_lt ((Nat.le_add_right _ _).trans_lt h), Nat.mod_eq_of_lt h, htime]

/-! ## Polls -/

namespace PitIrqSchedule

variable {s : PitIrqSchedule} {snapshot : PitChannel0Snapshot}

/-- The schedule counts ticks of this configuration. -/
def Counts (s : PitIrqSchedule) (snapshot : PitChannel0Snapshot) : Prop :=
  s.initialized = true ∧ s.generation = snapshot.generation

instance : Decidable (s.Counts snapshot) := inferInstanceAs (Decidable (_ ∧ _))

/-- The first poll of a configuration starts its epoch. -/
theorem poll_starts (h : ¬s.Counts snapshot) (elapsed : UInt64) :
    s.poll snapshot elapsed = (⟨snapshot.generation, elapsed, 0, true⟩, {}) := by
  have hstart : (!s.initialized || decide (snapshot.generation ≠ s.generation)) = true := by
    rw [Counts] at h
    by_cases hinitialized : s.initialized = true
    · have hgeneration : snapshot.generation ≠ s.generation := fun heq => h ⟨hinitialized, heq.symm⟩
      simp [hgeneration]
    · simp [hinitialized]
  rw [poll, if_pos hstart]

theorem counts_not_start (h : s.Counts snapshot) :
    ¬(!s.initialized || decide (snapshot.generation ≠ s.generation)) = true := by
  simp [h.1, h.2]

/-- A poll at or after the epoch compares the ticks since the epoch with those reported. -/
theorem poll_after_epoch (h : s.Counts snapshot) {elapsed : UInt64} (hepoch : s.epochNanoseconds ≤ elapsed) :
    s.poll snapshot elapsed =
      if pitTickCountForElapsed (elapsed - s.epochNanoseconds) snapshot.divisor ≤ s.emittedTickCount then (s, {})
      else
        ({ s with emittedTickCount := pitTickCountForElapsed (elapsed - s.epochNanoseconds) snapshot.divisor },
          { epochNanoseconds := s.epochNanoseconds
            firstTickOrdinal := s.emittedTickCount + 1
            tickCount := pitTickCountForElapsed (elapsed - s.epochNanoseconds) snapshot.divisor - s.emittedTickCount
            divisor := snapshot.divisor }) := by
  rw [poll, if_neg (counts_not_start h), if_neg (UInt64.not_lt.mpr hepoch)]

/-- A poll at or after the epoch reports the ticks since the last one. -/
theorem poll_counts (h : s.Counts snapshot) {elapsed : UInt64} (hepoch : s.epochNanoseconds ≤ elapsed)
    (hemitted : s.emittedTickCount.toNat ≤
      ticksIn (elapsed.toNat - s.epochNanoseconds.toNat) (effectiveDivisor snapshot.divisor).toNat) :
    (s.poll snapshot elapsed).1.Counts snapshot ∧
    (s.poll snapshot elapsed).1.epochNanoseconds = s.epochNanoseconds ∧
    (s.poll snapshot elapsed).1.emittedTickCount.toNat =
      ticksIn (elapsed.toNat - s.epochNanoseconds.toNat) (effectiveDivisor snapshot.divisor).toNat ∧
    (s.poll snapshot elapsed).2.ordinals = List.range' (s.emittedTickCount.toNat + 1)
      (ticksIn (elapsed.toNat - s.epochNanoseconds.toNat) (effectiveDivisor snapshot.divisor).toNat -
        s.emittedTickCount.toNat) := by
  have hcount := toNat_pitTickCountForElapsed (elapsed - s.epochNanoseconds) snapshot.divisor
  rw [UInt64.toNat_sub_of_le _ _ hepoch] at hcount
  rw [poll_after_epoch h hepoch]
  by_cases hnone : pitTickCountForElapsed (elapsed - s.epochNanoseconds) snapshot.divisor ≤ s.emittedTickCount
  · -- nothing new is due
    rw [if_pos hnone]
    rw [UInt64.le_iff_toNat_le, hcount] at hnone
    have hsame := hemitted.antisymm hnone
    refine ⟨h, rfl, hsame, ?_⟩
    rw [hsame, Nat.sub_self, PitIrqDueRange.ordinals, UInt64.toNat_zero]
    rw [List.range'_zero, List.range'_zero]
  · rw [if_neg hnone]
    rw [UInt64.not_le] at hnone
    refine ⟨h, rfl, hcount, ?_⟩
    have hnext : (s.emittedTickCount + 1).toNat = s.emittedTickCount.toNat + 1 := by
      rw [UInt64.toNat_add, UInt64.toNat_one, Nat.mod_eq_of_lt]
      exact lt_of_le_of_lt (UInt64.lt_iff_toNat_lt.mp hnone) (UInt64.toNat_lt _)
    show List.range' (s.emittedTickCount + 1).toNat _ = _
    rw [hnext, UInt64.toNat_sub_of_le _ _ (UInt64.le_of_lt hnone), hcount]

theorem le_getLastD {last : UInt64} {times : List UInt64} (h : (last :: times).Pairwise (· ≤ ·)) :
    last ≤ times.getLastD last := by
  rw [List.pairwise_cons] at h
  cases times with
  | nil => exact UInt64.le_refl _
  | cons elapsed times =>
    rw [List.getLastD_eq_getLast?, List.getLast?_eq_some_getLast (List.cons_ne_nil elapsed times)]
    exact h.1 _ (List.getLast_mem _)

/-- Polls at times that do not decrease report each tick once, in order. -/
theorem pollAll_counts (h : s.Counts snapshot) {last : UInt64} {times : List UInt64}
    (hepoch : s.epochNanoseconds ≤ last) (htimes : (last :: times).Pairwise (· ≤ ·))
    (hemitted : s.emittedTickCount.toNat =
      ticksIn (last.toNat - s.epochNanoseconds.toNat) (effectiveDivisor snapshot.divisor).toNat) :
    (pollAll snapshot s times).2.flatMap PitIrqDueRange.ordinals =
      List.range' (s.emittedTickCount.toNat + 1)
        (ticksIn ((times.getLastD last).toNat - s.epochNanoseconds.toNat)
          (effectiveDivisor snapshot.divisor).toNat - s.emittedTickCount.toNat) := by
  induction times generalizing s last with
  | nil => simp [pollAll, hemitted]
  | cons elapsed times ih =>
    obtain ⟨hfirst, hchain⟩ := List.pairwise_cons.mp htimes
    have hlast : last ≤ elapsed := hfirst elapsed (List.mem_cons_self ..)
    have hle : s.emittedTickCount.toNat ≤
        ticksIn (elapsed.toNat - s.epochNanoseconds.toNat) (effectiveDivisor snapshot.divisor).toNat := by
      rw [hemitted]
      apply ticksIn_mono
      exact Nat.sub_le_sub_right (UInt64.le_iff_toNat_le.mp hlast) _
    have hepoch' := UInt64.le_trans hepoch hlast
    obtain ⟨hcounts, hsame, hcount, hordinals⟩ := poll_counts h hepoch' hle
    have hrest := ih hcounts (by rw [hsame]; exact hepoch') hchain (by rw [hsame]; exact hcount)
    have hmono : ticksIn (elapsed.toNat - s.epochNanoseconds.toNat) (effectiveDivisor snapshot.divisor).toNat ≤
        ticksIn ((times.getLastD elapsed).toNat - s.epochNanoseconds.toNat)
          (effectiveDivisor snapshot.divisor).toNat := by
      apply ticksIn_mono
      exact Nat.sub_le_sub_right (UInt64.le_iff_toNat_le.mp (le_getLastD hchain)) _
    rw [pollAll, List.flatMap_cons, hordinals, hrest, hcount, hsame, List.getLastD_cons]
    -- the range of this poll ends where the ranges of the rest begin
    generalize ticksIn (elapsed.toNat - _) _ = now at hle hmono ⊢
    generalize ticksIn ((times.getLastD elapsed).toNat - _) _ = later at hmono ⊢
    obtain ⟨due, rfl⟩ := Nat.exists_eq_add_of_le hle
    rw [Nat.add_sub_cancel_left, Nat.add_right_comm, List.range'_append_1]
    congr 1
    omega

/-- When a poll reports a tick. -/
theorem poll_reports_iff (h : s.Counts snapshot) (elapsed : UInt64) :
    1 ≤ (s.poll snapshot elapsed).2.tickCount.toNat ↔
      s.epochNanoseconds ≤ elapsed ∧ s.emittedTickCount.toNat + 1 ≤
        ticksIn (elapsed.toNat - s.epochNanoseconds.toNat) (effectiveDivisor snapshot.divisor).toNat := by
  by_cases hepoch : elapsed < s.epochNanoseconds
  · rw [poll, if_neg (counts_not_start h), if_pos hepoch]
    simp [hepoch]
  · rw [UInt64.not_lt] at hepoch
    rw [poll_after_epoch h hepoch]
    have hcount := toNat_pitTickCountForElapsed (elapsed - s.epochNanoseconds) snapshot.divisor
    rw [UInt64.toNat_sub_of_le _ _ hepoch] at hcount
    rw [← hcount]
    simp only [hepoch, true_and]
    by_cases hnone : pitTickCountForElapsed (elapsed - s.epochNanoseconds) snapshot.divisor ≤ s.emittedTickCount
    · rw [if_pos hnone]
      rw [UInt64.le_iff_toNat_le] at hnone
      simp only [UInt64.toNat_zero]
      omega
    · rw [if_neg hnone]
      rw [UInt64.not_le] at hnone
      simp only [UInt64.toNat_sub_of_le _ _ (UInt64.le_of_lt hnone)]
      rw [UInt64.lt_iff_toNat_lt] at hnone
      omega

/-- The time of the next tick, on the clock of the polls. -/
def nextTickTime (s : PitIrqSchedule) (snapshot : PitChannel0Snapshot) : ℕ :=
  s.epochNanoseconds.toNat + tickTime (s.emittedTickCount.toNat + 1) (effectiveDivisor snapshot.divisor).toNat

/-- The delay is the time to the next tick, where the clock can show that tick. -/
theorem toNat_nanosecondsUntilNextTick (h : s.Counts snapshot) (hnext : s.nextTickTime snapshot < 2 ^ 64)
    (elapsed : UInt64) :
    (s.nanosecondsUntilNextTick snapshot elapsed).toNat = s.nextTickTime snapshot - elapsed.toNat := by
  unfold nextTickTime at hnext ⊢
  have htime := (Nat.le_add_left _ _).trans_lt hnext
  have hordinal : (s.emittedTickCount + 1).toNat = s.emittedTickCount.toNat + 1 := by
    rw [UInt64.toNat_add, UInt64.toNat_one, Nat.mod_eq_of_lt]
    refine lt_of_le_of_lt ?_ (pitElapsedNanosecondsForTick_fits htime).1
    exact Nat.le_mul_of_pos_right _ (effectiveDivisor_pos _)
  have hoffset := @toNat_pitElapsedNanosecondsForTick (s.emittedTickCount + 1) snapshot.divisor
    (by rw [hordinal]; exact htime)
  rw [hordinal] at hoffset
  have hmax : (UInt64.ofNat (2 ^ 64 - 1)).toNat = 2 ^ 64 - 1 := by decide
  rw [nanosecondsUntilNextTick, if_neg (counts_not_start h)]
  simp only
  generalize pitElapsedNanosecondsForTick (s.emittedTickCount + 1) snapshot.divisor = offset at hoffset ⊢
  have hfits : ¬s.epochNanoseconds > UInt64.ofNat (2 ^ 64 - 1) - offset := by
    have hle : offset ≤ UInt64.ofNat (2 ^ 64 - 1) := by
      rw [UInt64.le_iff_toNat_le, hmax]
      exact Nat.le_pred_of_lt offset.toNat_lt
    rw [gt_iff_lt, UInt64.not_lt, UInt64.le_iff_toNat_le, UInt64.toNat_sub_of_le _ _ hle, hmax, hoffset]
    omega
  simp only [if_neg hfits]
  have hsum : (s.epochNanoseconds + offset).toNat = s.epochNanoseconds.toNat +
      tickTime (s.emittedTickCount.toNat + 1) (effectiveDivisor snapshot.divisor).toNat := by
    rw [UInt64.toNat_add, hoffset, Nat.mod_eq_of_lt hnext]
  by_cases hdue : elapsed ≥ s.epochNanoseconds + offset
  · rw [if_pos hdue]
    rw [ge_iff_le, UInt64.le_iff_toNat_le, hsum] at hdue
    rw [UInt64.toNat_zero, Nat.sub_eq_zero_of_le hdue]
  · rw [if_neg hdue]
    rw [ge_iff_le, UInt64.not_le] at hdue
    rw [UInt64.toNat_sub_of_le _ _ (UInt64.le_of_lt hdue), hsum]

/-- Before the time of the next tick a poll reports nothing; from then on it reports that tick. -/
theorem poll_reports_iff_nextTickTime (h : s.Counts snapshot) (elapsed : UInt64) :
    1 ≤ (s.poll snapshot elapsed).2.tickCount.toNat ↔ s.nextTickTime snapshot ≤ elapsed.toNat := by
  rw [poll_reports_iff h, ← tickTime_le_iff (effectiveDivisor_pos _), UInt64.le_iff_toNat_le, nextTickTime]
  constructor
  · rintro ⟨hepoch, htime⟩
    omega
  · intro hnext
    constructor <;> omega

end PitIrqSchedule

open PitIrqSchedule

/-- Ticks are neither lost nor duplicated: polls of one configuration report the ordinals
`1, 2, …` up to the number of ticks since the epoch, the delay to the next tick is exact, and the
two conversions are adjoint without a wrap. -/
theorem pit_ticks_exact (snapshot : PitChannel0Snapshot) :
    (∀ (s : PitIrqSchedule) (epoch : UInt64) (times : List UInt64), ¬s.Counts snapshot →
      (epoch :: times).Pairwise (· ≤ ·) →
      (pollAll snapshot s (epoch :: times)).2.flatMap PitIrqDueRange.ordinals =
        List.range' 1 (((times.getLastD epoch).toNat - epoch.toNat) * 1193280 / 1000000000 /
          (effectiveDivisor snapshot.divisor).toNat)) ∧
    (∀ (s : PitIrqSchedule) (elapsed : UInt64), s.Counts snapshot → s.nextTickTime snapshot < 2 ^ 64 →
      (∀ e : UInt64, elapsed ≤ e →
        e.toNat < elapsed.toNat + (s.nanosecondsUntilNextTick snapshot elapsed).toNat →
        (s.poll snapshot e).2.tickCount = 0) ∧
      1 ≤ (s.poll snapshot (elapsed + s.nanosecondsUntilNextTick snapshot elapsed)).2.tickCount) ∧
    (∀ ordinal elapsed : UInt64,
      tickTime ordinal.toNat (effectiveDivisor snapshot.divisor).toNat < 2 ^ 64 →
      (pitElapsedNanosecondsForTick ordinal snapshot.divisor ≤ elapsed ↔
        ordinal ≤ pitTickCountForElapsed elapsed snapshot.divisor)) ∧
    (∀ elapsed : UInt64, elapsed.toNat % 1000000000 * 1193280 < 2 ^ 64 ∧
      elapsed.toNat / 1000000000 * 1193280 + elapsed.toNat % 1000000000 * 1193280 / 1000000000 < 2 ^ 64) ∧
    ∀ ordinal divisor : ℕ, tickTime ordinal divisor < 2 ^ 64 →
      ordinal * divisor < 2 ^ 64 ∧
      ordinal * divisor % 1193280 * 1000000000 + 1193280 < 2 ^ 64 ∧
      ordinal * divisor / 1193280 * 1000000000 +
        (ordinal * divisor % 1193280 * 1000000000 + 1193280 - 1) / 1193280 < 2 ^ 64 := by
  refine ⟨?_, ?_, ?_, pitTickCountForElapsed_fits, ?_⟩
  · intro s epoch times hstart htimes
    rw [pollAll, poll_starts hstart, List.flatMap_cons]
    exact pollAll_counts ⟨rfl, rfl⟩ (UInt64.le_refl epoch) htimes (by simp [ticksIn_zero])
  · intro s elapsed h hnext
    have hdelay := toNat_nanosecondsUntilNextTick h hnext elapsed
    constructor
    · intro e hle hbefore
      have hnone : ¬1 ≤ (s.poll snapshot e).2.tickCount.toNat := by
        rw [poll_reports_iff_nextTickTime h]
        rw [UInt64.le_iff_toNat_le] at hle
        omega
      rw [← UInt64.toNat_inj, UInt64.toNat_zero]
      omega
    · rw [UInt64.le_iff_toNat_le, UInt64.toNat_one, poll_reports_iff_nextTickTime h, UInt64.toNat_add, hdelay]
      have := elapsed.toNat_lt
      omega
  · intro ordinal elapsed hfits
    rw [UInt64.le_iff_toNat_le, UInt64.le_iff_toNat_le, toNat_pitElapsedNanosecondsForTick hfits,
      toNat_pitTickCountForElapsed]
    exact tickTime_le_iff (effectiveDivisor_pos _)
  · intro ordinal divisor hfits
    obtain ⟨hclocks, hnumerator, htime⟩ := pitElapsedNanosecondsForTick_fits hfits
    exact ⟨hclocks, hnumerator, htime ▸ hfits⟩

/-- The configuration of the guest: 240 ticks a second. -/
def guestSnapshot : PitChannel0Snapshot := { generation := 2, divisor := 4972 }

theorem pit_ticks_guest :
    (pollAll guestSnapshot {} [1000000, 5167000, 9334000, 26000000]).2.flatMap PitIrqDueRange.ordinals =
      List.range' 1 6 ∧
    1 ≤ (PitIrqSchedule.poll ⟨2, 1000000, 6, true⟩ guestSnapshot
      (26000000 + nanosecondsUntilNextTick ⟨2, 1000000, 6, true⟩ guestSnapshot 26000000)).2.tickCount :=
  have h := pit_ticks_exact guestSnapshot
  ⟨h.1 {} 1000000 [5167000, 9334000, 26000000] (by decide) (by decide),
    (h.2.1 ⟨2, 1000000, 6, true⟩ 26000000 (by decide) (by decide)).2⟩

/-- With a clock of 1193182 Hz the first tick would come later; and before the first poll the delay
is zero although no tick is due. -/
theorem pit_ticks_not_1193182 :
    (∃ (snapshot : PitChannel0Snapshot) (s : PitIrqSchedule) (epoch : UInt64) (times : List UInt64),
      ¬s.Counts snapshot ∧ (epoch :: times).Pairwise (· ≤ ·) ∧
      (pollAll snapshot s (epoch :: times)).2.flatMap PitIrqDueRange.ordinals ≠
        List.range' 1 (((times.getLastD epoch).toNat - epoch.toNat) * 1193182 / 1000000000 /
          (effectiveDivisor snapshot.divisor).toNat)) ∧
    ∃ (snapshot : PitChannel0Snapshot) (s : PitIrqSchedule) (elapsed : UInt64),
      s.nanosecondsUntilNextTick snapshot elapsed = 0 ∧ (s.poll snapshot elapsed).2.tickCount = 0 :=
  ⟨⟨guestSnapshot, {}, 0, [4166800], by decide, by decide, by decide⟩, ⟨guestSnapshot, {}, 0, by decide, by decide⟩⟩

end Repiu.Hle
