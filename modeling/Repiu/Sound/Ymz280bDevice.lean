import Repiu.ByteMemory
import Mathlib.Data.List.FinRange
import Mathlib.Data.Int.Init

/-!
# The YMZ280B

`ymz280b_device.cpp`: eight voices that decode PCM or ADPCM from a ROM, each resampled to the rate
of the output. Logging and the counters for it are left out.
-/

namespace Repiu.Sound.Ymz280b

/-! ## Voices -/

/-- `kFracOne`. -/
def kFracOne : ℕ := 2 ^ 9

def kMaxSampleChunk : ℕ := 10000

def kScratchSlack : ℕ := 2

def kMixNormalizeDivisor : ℤ := 256

def kDiffLookup (nibble : ℕ) : ℤ :=
  [1, 3, 5, 7, 9, 11, 13, 15, -1, -3, -5, -7, -9, -11, -13, -15].getD nibble 0

def kIndexScale (magnitude : ℕ) : ℤ :=
  [0x0E6, 0x0E6, 0x0E6, 0x0E6, 0x133, 0x199, 0x200, 0x266].getD magnitude 0

def kModeAdpcm : ℕ := 1

def kModePcm8 : ℕ := 2

def kModePcm16 : ℕ := 3

/-- What a voice decodes, and how far it is. Addresses are in nibbles. -/
structure Source where
  playing : Bool := false
  keyon : Bool := false
  looping : Bool := false
  mode : ℕ := 0
  start : Word := 0
  stop : Word := 0
  loopStart : Word := 0
  loopEnd : Word := 0
  position : Word := 0
  signal : ℤ := 0
  step : ℤ := 0
  loopSignal : ℤ := 0
  loopStep : ℤ := 0
  loopCount : ℤ := 0

/-- A voice of an initialized device between two calls, where `ended` is never set. -/
structure Voice extends Source where
  fnum : ℕ := 0
  level : ℕ := 0
  pan : ℕ := 0
  outputLeft : ℕ := 0
  outputRight : ℕ := 0
  outputPos : ℕ := kFracOne
  lastSample : ℤ := 0
  currSample : ℤ := 0
  outputStep : ℕ := 1
  outputPos_le : outputPos ≤ kFracOne := by decide
  outputStep_pos : 0 < outputStep := by decide
  outputStep_le : outputStep ≤ kFracOne := by decide

structure Device where
  rom : List Byte
  voices : Fin 8 → Voice := fun _ => {}
  currentRegister : Byte := 0
  statusRegister : Byte := 0
  irqMask : Byte := 0
  irqEnable : Bool := false
  keyonEnable : Bool := false
  externalMemoryEnable : Bool := false
  externalMemoryAddress : Word := 0
  externalMemoryAddressHigh : Word := 0
  externalMemoryAddressMid : Word := 0
  externalReadLatch : Byte := 0

/-- `ReadByte`. -/
def readByte (rom : List Byte) (byteAddress : Word) : Byte := rom.getD (byteAddress &&& 0xFFFFFF).toNat 0xFF

/-! ## Registers -/

namespace Voice

/-- `UpdateStep`. -/
def updateStep (v : Voice) : Voice :=
  let frequency := if v.mode = kModeAdpcm then v.fnum &&& 0x0FF else v.fnum &&& 0x1FF
  have hle : frequency ≤ 0x1FF := by
    show (if _ then _ else _) ≤ _
    split_ifs
    · exact Nat.and_le_right.trans (by decide)
    · exact Nat.and_le_right
  { v with
    outputStep := frequency + 1
    outputStep_pos := Nat.succ_pos _
    outputStep_le := Nat.succ_le_succ hle }

/-- `UpdateVolumes`. -/
def updateVolumes (v : Voice) : Voice :=
  if v.pan = 8 then { v with outputLeft := v.level, outputRight := v.level }
  else if v.pan < 8 then
    { v with outputLeft := v.level, outputRight := if v.pan = 0 then 0 else v.level * (v.pan - 1) / 7 }
  else { v with outputLeft := v.level * (15 - v.pan) / 7, outputRight := v.level }

/-- A key-on. -/
def keyOn (v : Voice) : Voice :=
  { v with
    playing := true
    position := v.start
    signal := 0
    loopSignal := 0
    step := 0x7F
    loopStep := 0x7F
    loopCount := 0 }

/-- The write of a voice's register 1: the upper bit of the pitch, loop, key on and mode. -/
def writeControl (v : Voice) (keyonEnable : Bool) (data : Byte) : Voice :=
  let v : Voice :=
    { v with
      fnum := (v.fnum &&& 0xFF) ||| ((data &&& 0x01).toNat <<< 8)
      looping := data &&& 0x10 ≠ 0
      mode := if data &&& 0x60 = 0 then v.mode else (data &&& 0x60).toNat >>> 5 }
  let effective := if data &&& 0x60 = 0 then data &&& 0x7F else data
  let v := v.updateStep
  let keyOnRequested : Bool := effective &&& 0x80 ≠ 0
  let v :=
    if !v.keyon && keyOnRequested && keyonEnable then v.keyOn
    else if v.keyon && !keyOnRequested then { v with playing := false }
    else v
  { v with keyon := keyOnRequested }

/-- A byte of an address; the mask keeps the other bytes. -/
def addressByte (address mask : Word) (shift : ℕ) (data : Byte) : Word :=
  (address &&& (mask <<< 1)) ||| (data.setWidth 32 <<< shift)

/-- The write of a voice's register, by the register number without the voice. -/
def write (v : Voice) (keyonEnable : Bool) (register : ℕ) (data : Byte) : Voice :=
  match register with
  | 0x00 => updateStep { v with fnum := (v.fnum &&& 0x100) ||| data.toNat }
  | 0x01 => v.writeControl keyonEnable data
  | 0x02 => updateVolumes { v with level := data.toNat }
  | 0x03 => updateVolumes { v with pan := (data &&& 0x0F).toNat }
  | 0x20 => { v with start := addressByte v.start 0x00FFFF 17 data }
  | 0x21 => { v with loopStart := addressByte v.loopStart 0x00FFFF 17 data }
  | 0x22 => { v with loopEnd := addressByte v.loopEnd 0x00FFFF 17 data }
  | 0x23 => { v with stop := addressByte v.stop 0x00FFFF 17 data }
  | 0x40 => { v with start := addressByte v.start 0xFF00FF 9 data }
  | 0x41 => { v with loopStart := addressByte v.loopStart 0xFF00FF 9 data }
  | 0x42 => { v with loopEnd := addressByte v.loopEnd 0xFF00FF 9 data }
  | 0x43 => { v with stop := addressByte v.stop 0xFF00FF 9 data }
  | 0x60 => { v with start := addressByte v.start 0xFFFF00 1 data }
  | 0x61 => { v with loopStart := addressByte v.loopStart 0xFFFF00 1 data }
  | 0x62 => { v with loopEnd := addressByte v.loopEnd 0xFFFF00 1 data }
  | 0x63 => { v with stop := addressByte v.stop 0xFFFF00 1 data }
  | _ => v

end Voice

namespace Device

end Device

/-! ## Decoding -/

def clamp (x lo hi : ℤ) : ℤ := if x < lo then lo else if hi < x then hi else x

/-- `static_cast<std::int16_t>`. -/
def toInt16 (x : ℤ) : ℤ := x.bmod (2 ^ 16)

/-- `decode_one`: the predictor after the nibble at a position. -/
def decodeOne (rom : List Byte) (position : Word) (signal step : ℤ) : ℤ × ℤ :=
  let val := (readByte rom (position / 2) >>> ((~~~position &&& 1) <<< 2).toNat).toNat
  ( clamp (signal + (step * kDiffLookup (val &&& 15)).tdiv 8) (-32768) 32767,
    clamp ((step * kIndexScale (val &&& 7)) >>> (8 : ℕ)) 0x7F 0x6000 )

/-- The state at the loop point is captured on the first pass. -/
def Source.captureLoop (s : Source) : Source :=
  if s.position = s.loopStart ∧ s.loopCount = 0 then { s with loopSignal := s.signal, loopStep := s.step }
  else s

/-- A wrap restores it. -/
def Source.wrapLoop (s : Source) : Source :=
  if s.loopEnd ≤ s.position ∧ s.keyon then
    { s with
      position := s.loopStart
      signal := s.loopSignal
      step := s.loopStep
      loopCount := s.loopCount + 1 }
  else s

/-- One round of the loops of `GenerateAdpcm`: the sample, the state after it, and `ended`. -/
def adpcmSample (rom : List Byte) (s : Source) : ℤ × Source × Bool :=
  let decoded := decodeOne rom s.position s.signal s.step
  let s : Source := { s with position := s.position + 1, signal := decoded.1, step := decoded.2 }
  let s := if s.looping then s.captureLoop.wrapLoop else s
  (toInt16 decoded.1, s, decide (s.stop ≤ s.position))

/-- Where a PCM voice stands after a sample. -/
def pcmAdvance (s : Source) (nibbles : Word) : Source × Bool :=
  let position := s.position + nibbles
  let position := if s.looping ∧ s.loopEnd ≤ position ∧ s.keyon then s.loopStart else position
  ({ s with position }, decide (s.stop ≤ position))

/-- One round of the loop of `GeneratePcm8`. -/
def pcm8Sample (rom : List Byte) (s : Source) : ℤ × Source × Bool :=
  let val := (readByte rom (s.position / 2)).toInt
  (toInt16 (val * 256), pcmAdvance s 2)

/-- One round of the loop of `GeneratePcm16`. -/
def pcm16Sample (rom : List Byte) (s : Source) : ℤ × Source × Bool :=
  let low := readByte rom (s.position / 2)
  let high := readByte rom (s.position / 2 + 1)
  ((high ++ low : BitVec 16).toInt, pcmAdvance s 4)

/-- What a decoder leaves: the samples, `samples` not decoded, the voice, and `ended`. -/
structure Decoded where
  samples : List ℤ
  left : ℕ
  source : Source
  ended : Bool

/-- The loop of the decoders. -/
def decodeLoop (sample : Source → ℤ × Source × Bool) : ℕ → Source → Decoded
  | 0, s => { samples := [], left := 0, source := s, ended := false }
  | count + 1, s =>
    match sample s with
    | (x, s, true) => { samples := [x], left := count, source := s, ended := true }
    | (x, s, false) =>
      let rest := decodeLoop sample count s
      { rest with samples := x :: rest.samples }

def generateAdpcm (rom : List Byte) : ℕ → Source → Decoded := decodeLoop (adpcmSample rom)

def generatePcm8 (rom : List Byte) : ℕ → Source → Decoded := decodeLoop (pcm8Sample rom)

def generatePcm16 (rom : List Byte) : ℕ → Source → Decoded := decodeLoop (pcm16Sample rom)

/-- A voice has a decoder at work. -/
def Source.decodes (s : Source) : Bool :=
  s.playing && (s.mode = kModeAdpcm || s.mode = kModePcm8 || s.mode = kModePcm16)

/-- The switch over the decoders; a voice without one is silent. -/
def Source.decode (rom : List Byte) (s : Source) (count : ℕ) : Decoded :=
  if s.playing ∧ s.mode = kModeAdpcm then generateAdpcm rom count s
  else if s.playing ∧ s.mode = kModePcm8 then generatePcm8 rom count s
  else if s.playing ∧ s.mode = kModePcm16 then generatePcm16 rom count s
  else { samples := List.replicate count 0, left := 0, source := s, ended := false }

/-- What is left of a block fades out. -/
def ramp : ℕ → ℤ → List ℤ
  | 0, _ => []
  | left + 1, tail =>
    let tail := if tail < 0 then -((-tail * 15) >>> 4) else if tail > 0 then (tail * 15) >>> 4 else tail
    toInt16 tail :: ramp left tail

/-- The slots of a block, filled by the decoder and faded out, with the voice after it. -/
structure Slots where
  scratch : List ℤ
  source : Source
  stopped : Bool
  decoded : List ℤ

def Source.fill (rom : List Byte) (s : Source) (curr : ℤ) (newSamples : ℕ) : Slots :=
  let d := s.decode rom newSamples
  if d.left ≠ 0 ∨ d.ended then
    let base := newSamples - d.left
    let tail := if base = 0 then curr else d.samples.getD (base - 1) 0
    { scratch := d.samples ++ ramp d.left tail
      source := if base ≠ 0 then { d.source with playing := false } else d.source
      stopped := base ≠ 0
      decoded := if s.decodes then d.samples else [] }
  else
    { scratch := d.samples
      source := d.source
      stopped := false
      decoded := if s.decodes then d.samples else [] }

/-! ## Resampling -/

/-- What a frame adds to the accumulators. -/
def emit (v : Voice) (prev curr : ℤ) (outputPos : ℕ) : ℤ × ℤ :=
  let interpolated := (prev * ((kFracOne : ℤ) - outputPos) + curr * outputPos) >>> (9 : ℕ)
  ((interpolated * v.outputLeft).tdiv 2, (interpolated * v.outputRight).tdiv 2)

/-- The loop that emits frames of one pair of samples. -/
def emitWhile (v : Voice) (prev curr : ℤ) : ℕ → ℕ → List (ℤ × ℤ) × ℕ × ℕ
  | 0, outputPos => ([], 0, outputPos)
  | remaining + 1, outputPos =>
    if outputPos < kFracOne then
      let rest := emitWhile v prev curr remaining (outputPos + v.outputStep)
      (emit v prev curr outputPos :: rest.1, rest.2)
    else ([], remaining + 1, outputPos)

/-- Where the walk over the slots ends. -/
structure Walk where
  frames : List (ℤ × ℤ)
  outputPos : ℕ
  prev : ℤ
  curr : ℤ
  scratchIndex : ℕ

/-- `next_scratch`, of slots with the slack behind them: the sample and `scratch_index`. -/
def nextScratch (slots : List ℤ) (scratchIndex : ℕ) : ℤ × ℕ :=
  if slots.length ≤ scratchIndex then (slots.getD (slots.length - 1) 0, scratchIndex)
  else (slots.getD scratchIndex 0, scratchIndex + 1)

/-- The loop over the frames of a block. The first argument bounds its rounds. -/
def mixLoop (v : Voice) (slots : List ℤ) : ℕ → ℕ → ℕ → ℤ → ℤ → ℕ → Walk
  | 0, _, outputPos, prev, curr, index => ⟨[], outputPos, prev, curr, index⟩
  | fuel + 1, remaining, outputPos, prev, curr, index =>
    if remaining = 0 then ⟨[], outputPos, prev, curr, index⟩
    else
      let e := emitWhile v prev curr remaining outputPos
      let rest :=
        if kFracOne ≤ e.2.2 then
          let next := nextScratch slots index
          mixLoop v slots fuel e.2.1 (e.2.2 - kFracOne) curr next.1 next.2
        else mixLoop v slots fuel e.2.1 e.2.2 prev curr index
      { rest with frames := e.1 ++ rest.frames }

/-- `new_samples`, in the widths of the source. -/
def newSamples (outputPos remaining outputStep : ℕ) : ℕ :=
  let finalPos : Word := BitVec.ofNat 32 outputPos + BitVec.ofNat 32 (remaining * outputStep)
  min ((finalPos + BitVec.ofNat 32 kFracOne).sshiftRight 9).toNat kMaxSampleChunk

theorem emitWhile_outputPos_lt (v : Voice) (prev curr : ℤ) (remaining outputPos : ℕ)
    (h : outputPos < 2 * kFracOne) :
    (emitWhile v prev curr remaining outputPos).2.2 < 2 * kFracOne := by
  induction remaining generalizing outputPos with
  | zero => exact h
  | succ remaining ih =>
    unfold emitWhile
    by_cases hpos : outputPos < kFracOne
    · rw [if_pos hpos]
      apply ih
      have hstep := v.outputStep_le
      omega
    · rw [if_neg hpos]
      exact h

/-- The position is below one sample whenever the loop goes round. -/
theorem mixLoop_outputPos_lt {v : Voice} {slots : List ℤ} (fuel remaining outputPos : ℕ) (prev curr : ℤ)
    (index : ℕ) (h : outputPos < kFracOne) :
    (mixLoop v slots fuel remaining outputPos prev curr index).outputPos < kFracOne := by
  induction fuel generalizing remaining outputPos prev curr index with
  | zero => exact h
  | succ fuel ih =>
    unfold mixLoop
    by_cases hdone : remaining = 0
    · rw [if_pos hdone]
      exact h
    rw [if_neg hdone]
    have hlt := emitWhile_outputPos_lt v prev curr remaining outputPos (by omega)
    generalize emitWhile v prev curr remaining outputPos = e at hlt
    by_cases hnext : kFracOne ≤ e.2.2
    · simp only [if_pos hnext]
      apply ih
      omega
    · simp only [if_neg hnext]
      apply ih
      omega

/-- What a call of `Generate` does with one voice: its part of the accumulators, the voice
after it, the status bit, and how many samples were made, taken and decoded. -/
structure VoiceBlock where
  frames : List (ℤ × ℤ)
  voice : Voice
  stopped : Bool := false
  newSamples : ℕ := 0
  scratchIndex : ℕ := 0
  decoded : List ℤ := []

/-- The body of the loop over the voices. -/
def Voice.generate (rom : List Byte) (v : Voice) (frames : ℕ) : VoiceBlock :=
  if !v.playing ∧ v.currSample = 0 ∧ v.lastSample = 0 then
    { frames := List.replicate frames (0, 0)
      voice := { v with outputPos := kFracOne, outputPos_le := le_refl _ } }
  else
    let first := emitWhile v v.lastSample v.currSample frames v.outputPos
    if hlow : first.2.2 < kFracOne then
      { frames := first.1, voice := { v with outputPos := first.2.2, outputPos_le := hlow.le } }
    else
      have hhigh : first.2.2 - kFracOne < kFracOne := by
        have hpos := v.outputPos_le
        have hlt := emitWhile_outputPos_lt v v.lastSample v.currSample frames v.outputPos
          (lt_of_le_of_lt hpos (by decide))
        show (emitWhile v v.lastSample v.currSample frames v.outputPos).2.2 - kFracOne < kFracOne
        omega
      let count := newSamples (first.2.2 - kFracOne) first.2.1 v.outputStep
      let filled := v.fill rom v.currSample count
      let slots := filled.scratch ++ List.replicate kScratchSlack 0
      let next := nextScratch slots 0
      let walk := mixLoop v slots first.2.1 first.2.1 (first.2.2 - kFracOne) v.currSample next.1 next.2
      have hwalk : walk.outputPos < kFracOne := mixLoop_outputPos_lt _ _ _ _ _ _ hhigh
      { frames := first.1 ++ walk.frames
        voice :=
          { v with
            toSource := filled.source
            outputPos := walk.outputPos
            lastSample := walk.prev
            currSample := walk.curr
            outputPos_le := hwalk.le }
        stopped := filled.stopped
        newSamples := count
        scratchIndex := walk.scratchIndex
        decoded := filled.decoded }

namespace Device

/-- What a call does with a voice; without a ROM, or without frames, nothing. -/
def voiceBlock (d : Device) (index : Fin 8) (frames : ℕ) : VoiceBlock :=
  if frames = 0 ∨ d.rom = [] then { frames := List.replicate frames (0, 0), voice := d.voices index }
  else (d.voices index).generate d.rom frames

/-- A frame of the output: the accumulators scaled to 16 bits. -/
def outputFrame (d : Device) (frames frame : ℕ) : List ℤ :=
  let parts := (List.finRange 8).map fun index => (d.voiceBlock index frames).frames.getD frame (0, 0)
  let scale := fun accumulator : ℤ =>
    toInt16 (clamp (accumulator.tdiv kMixNormalizeDivisor) (-32768) 32767)
  [scale (parts.map Prod.fst).sum, scale (parts.map Prod.snd).sum]

/-- `Generate`: the interleaved output and the device after it. -/
def generate (d : Device) (frames : ℕ) : List ℤ × Device :=
  ( (List.range frames).flatMap (d.outputFrame frames),
    { d with
      voices := fun index => (d.voiceBlock index frames).voice
      statusRegister :=
        (List.finRange 8).foldl
          (fun status index =>
            if (d.voiceBlock index frames).stopped then status ||| (1 <<< index.val) else status)
          d.statusRegister })

end Device

end Repiu.Sound.Ymz280b
