import Repiu.Sound.Ymz280bResampling

/-!
# Looping voices

A looping ADPCM voice from its key-on: where it stands and what its predictor holds after any
number of samples, and that the loop section repeats.
-/

namespace Repiu.Sound.Ymz280b

/-! ## The predictor -/

/-- The predictor after so many nibbles from a position. -/
def predictor (rom : List Byte) (position : Word) (signal step : ℤ) : ℕ → ℤ × ℤ
  | 0 => (signal, step)
  | k + 1 =>
    let before := predictor rom position signal step k
    decodeOne rom (position + BitVec.ofNat 32 k) before.1 before.2

namespace Source

variable (rom : List Byte) (s : Source)

/-- The samples before the loop section. -/
def leadIn : ℕ := s.loopStart.toNat - s.start.toNat

/-- The samples of a pass of the loop section. -/
def loopLength : ℕ := s.loopEnd.toNat - s.loopStart.toNat

/-- Where the voice stands after so many samples. -/
def placeAfter (count : ℕ) : Word :=
  if count < s.leadIn then s.start + BitVec.ofNat 32 count
  else s.loopStart + BitVec.ofNat 32 ((count - s.leadIn) % s.loopLength)

/-- The predictor at the loop point. -/
def loopPredictor : ℤ × ℤ := predictor rom s.start 0 0x7F s.leadIn

/-- The predictor after so many samples. -/
def predictorAfter (count : ℕ) : ℤ × ℤ :=
  if count < s.leadIn then predictor rom s.start 0 0x7F count
  else predictor rom s.loopStart (s.loopPredictor rom).1 (s.loopPredictor rom).2
    ((count - s.leadIn) % s.loopLength)

/-- The voice after so many samples. -/
structure Reached (count : ℕ) (t : Source) : Prop where
  keyon : t.keyon = true
  looping : t.looping = true
  stop : t.stop = s.stop
  loopStart : t.loopStart = s.loopStart
  loopEnd : t.loopEnd = s.loopEnd
  position : t.position = s.placeAfter count
  predictor : (t.signal, t.step) = s.predictorAfter rom count
  first : count < s.leadIn → t.loopCount = 0
  captured : s.leadIn ≤ count → (t.loopSignal, t.loopStep) = s.loopPredictor rom

variable {rom s}

end Source

/-! ## Key-on -/

end Repiu.Sound.Ymz280b
