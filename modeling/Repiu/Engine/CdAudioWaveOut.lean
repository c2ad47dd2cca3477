import Repiu.Media.ChdCdImage

/-!
# The CD audio transport

The commands that the guest gives to the drive, and the worker that decodes
sectors and hands them to the SDL stream. The worker takes its pass one access at a
time, and a command may land between any two of them.
-/

namespace Repiu.Engine

open Repiu.Media

namespace CdAudio

def kSectorBytes : ℕ := 2352
def kSectorsPerBuffer : Word := 8
def kQueuedBufferCount : ℕ := 4

/-- A buffer that the worker decodes: the generation and the cursor it was taken at. -/
structure Pass where
  generation : ℕ
  begin : Word
  sectors : Word

/-- Where the worker stands. `begun` is the generation at the start of the pass, which the worker does not keep. -/
inductive Worker where
  | top
  | sampled (begun : ℕ)
  /-- Everything is queued. -/
  | finishing (begun : ℕ)
  | loaded (p : Pass)
  | filled (p : Pass)
  | queued (p : Pass)

/-- The fields that the two parties share, and the worker. The machine's generation is this one modulo `2 ^ 32`. -/
structure Transport where
  playing : Bool
  paused : Bool
  queuedLba : Word
  audibleLba : Word
  frozenLba : Word
  startLba : Word
  endLba : Word
  generation : ℕ
  /-- The bytes put into the stream since it was cleared. -/
  pending : ℕ
  worker : Worker

/-- What SDL and the image answer in a step of the worker. -/
structure Answer where
  queued : ℤ
  read : Bool
  put : Bool

namespace Transport

def opened : Transport :=
  { playing := false, paused := false, queuedLba := 0, audibleLba := 0, frozenLba := 0, startLba := 0, endLba := 0,
    generation := 0, pending := 0, worker := .top }

def computeAudiblePosition (s : Transport) (queued : ℤ) : Word :=
  let pendingFrames : Word := if queued > 0 then BitVec.ofNat 32 (queued.toNat / kSectorBytes) else 0
  if s.startLba + pendingFrames < s.queuedLba then s.queuedLba - pendingFrames else s.startLba

def currentLba (s : Transport) : Word := if s.playing then s.audibleLba else s.frozenLba

def play (image : ChdCdImage) (s : Transport) (start count : Word) : Option Transport :=
  match image.findTrackByLba start with
  | none => none
  | some track =>
    if !track.audio ∨ count = 0 then none
    else some { s with
      generation := s.generation + 1
      pending := 0
      startLba := start
      queuedLba := start
      frozenLba := start
      audibleLba := start
      endLba := if track.endLba < start + count then track.endLba else start + count
      paused := false
      playing := true }

def stop (s : Transport) : Transport :=
  if !s.playing ∧ s.paused then s
  else
    { s with
      playing := false
      generation := s.generation + 1
      paused := s.playing
      frozenLba := s.currentLba
      queuedLba := s.currentLba
      pending := 0 }

def seek (image : ChdCdImage) (s : Transport) (lba : Word) : Option Transport :=
  match image.findTrackByLba lba with
  | none => none
  | some _ =>
    let s := if s.playing then s.stop else s
    some { s with
      paused := false
      generation := s.generation + 1
      frozenLba := lba
      queuedLba := lba
      audibleLba := lba }

def resume (s : Transport) : Option Transport :=
  if !s.paused ∨ s.endLba ≤ s.queuedLba then none else some { s with paused := false, playing := true }

/-- The two generations are one number for the machine. -/
def sameGeneration (s : Transport) (p : Pass) : Bool := decide (s.generation % 2 ^ 32 = p.generation % 2 ^ 32)

/-- One step of the worker. -/
def workerStep (s : Transport) (a : Answer) : Transport :=
  match s.worker with
  | .top =>
    if s.playing ∧ !s.paused then
      { s with audibleLba := s.computeAudiblePosition a.queued, worker := .sampled s.generation }
    else s
  | .sampled begun =>
    if a.queued ≥ kSectorBytes * kSectorsPerBuffer.toNat * kQueuedBufferCount then { s with worker := .top }
    else if s.endLba ≤ s.queuedLba then { s with worker := .finishing begun }
    else
      let sectors := if s.endLba - s.queuedLba < kSectorsPerBuffer then s.endLba - s.queuedLba else kSectorsPerBuffer
      { s with worker := .loaded ⟨s.generation, s.queuedLba, sectors⟩ }
  | .finishing _ =>
    if a.queued ≤ 0 then { s with frozenLba := s.endLba, playing := false, worker := .top }
    else { s with worker := .top }
  | .loaded p =>
    if a.read then { s with worker := .filled p }
    else { s with frozenLba := p.begin, playing := false, worker := .top }
  | .filled p =>
    if !s.sameGeneration p ∨ !s.playing then { s with worker := .top }
    else if a.put then { s with pending := s.pending + p.sectors.toNat * kSectorBytes, worker := .queued p }
    else { s with frozenLba := p.begin, playing := false, worker := .top }
  | .queued p =>
    if s.sameGeneration p then { s with queuedLba := p.begin + p.sectors, worker := .top }
    else { s with worker := .top }

end Transport

/-- A command of the guest or a step of the worker. -/
inductive Event where
  | play (start count : Word)
  | stop
  | seek (lba : Word)
  | resume
  | work (a : Answer)

namespace Transport

/-- A command that is refused changes nothing. -/
def next (image : ChdCdImage) (s : Transport) : Event → Transport
  | .play start count => (s.play image start count).getD s
  | .stop => s.stop
  | .seek lba => (s.seek image lba).getD s
  | .resume => s.resume.getD s
  | .work a => s.workerStep a

/-- The two exits that do not look at the generation are taken only by a pass that no command has overtaken, and
the generation does not come round while a pass is under way. -/
def Meets (s : Transport) (a : Answer) : Prop :=
  match s.worker with
  | .top | .sampled _ => True
  | .finishing begun => a.queued ≤ 0 → begun = s.generation
  | .loaded p => a.read = false → p.generation = s.generation
  | .filled p | .queued p => s.generation < p.generation + 2 ^ 32

/-- A step that can be taken: SDL reports at most what was put into the stream, and the condition is met. -/
def Takes (s : Transport) : Event → Prop
  | .work a => a.queued ≤ s.pending ∧ s.Meets a
  | .play .. | .stop | .seek _ | .resume => True

/-- The states reached from `s₀` by events of a kind. -/
inductive Reached (image : ChdCdImage) (kind : Event → Prop) (s₀ : Transport) : Transport → Prop where
  | start : Reached image kind s₀ s₀
  | next {s : Transport} (e : Event) : Reached image kind s₀ s → kind e → s.Takes e →
      Reached image kind s₀ (s.next image e)

/-- The pass under way was begun before the last command. -/
def Overtaken (s : Transport) : Prop :=
  match s.worker with
  | .top => False
  | .sampled begun | .finishing begun => begun < s.generation
  | .loaded p | .filled p | .queued p => p.generation < s.generation

/-- The worker has nothing from the future. -/
def Stamped (s : Transport) : Prop :=
  match s.worker with
  | .top => True
  | .sampled begun | .finishing begun => begun ≤ s.generation
  | .loaded p | .filled p | .queued p => p.generation ≤ s.generation

/-- Stopped: whatever the worker still does keeps the remembered position. -/
structure Parked (s : Transport) : Prop where
  stopped : s.playing = false
  position : s.frozenLba = s.queuedLba
  worker : match s.worker with
    | .top => True
    | .sampled begun | .finishing begun => begun < s.generation
    | .loaded p | .filled p => p.generation = s.generation → p.begin = s.queuedLba
    | .queued p => p.generation < s.generation

variable {image : ChdCdImage} {s : Transport} {a : Answer}

/-- A command that is carried out leaves the worker where it was and raises the generation. -/
theorem play_some {start count : Word} {s' : Transport} (h : s.play image start count = some s') :
    s'.worker = s.worker ∧ s'.generation = s.generation + 1 ∧ s'.paused = false := by
  unfold play at h
  split at h
  case h_1 => cases h
  case h_2 =>
    split at h
    · cases h
    · cases h
      exact ⟨rfl, rfl, rfl⟩

theorem stop_worker (s : Transport) : s.stop.worker = s.worker ∧ s.generation ≤ s.stop.generation := by
  unfold stop
  split
  · exact ⟨rfl, le_refl _⟩
  · exact ⟨rfl, Nat.le_succ _⟩

theorem seek_some {lba : Word} {s' : Transport} (h : s.seek image lba = some s') :
    s'.worker = s.worker ∧ s.generation < s'.generation ∧ s'.paused = false := by
  unfold seek at h
  split at h
  case h_1 => cases h
  case h_2 =>
    cases h
    dsimp only
    split
    · exact ⟨s.stop_worker.1, Nat.lt_succ_of_le s.stop_worker.2, rfl⟩
    · exact ⟨rfl, Nat.lt_succ_self _, rfl⟩

theorem resume_some {s' : Transport} (h : s.resume = some s') :
    s.paused = true ∧ s.queuedLba < s.endLba ∧ s' = { s with paused := false, playing := true } := by
  unfold resume at h
  split at h
  · cases h
  case isFalse hready =>
    cases h
    push Not at hready
    exact ⟨by simpa using hready.1, BitVec.not_le.mp hready.2, rfl⟩

theorem Stamped.of_le {s' : Transport} (h : s.Stamped) (hworker : s'.worker = s.worker)
    (hle : s.generation ≤ s'.generation) : s'.Stamped := by
  unfold Stamped at h ⊢
  rw [hworker]
  cases hw : s.worker <;> rw [hw] at h <;> dsimp only at h ⊢ <;> omega

/-- A stop that takes effect parks the transport. -/
theorem Stamped.parked {s' : Transport} (h : s.Stamped) (hworker : s'.worker = s.worker)
    (hlt : s.generation < s'.generation) (hstopped : s'.playing = false) (hposition : s'.frozenLba = s'.queuedLba) :
    s'.Parked := by
  refine ⟨hstopped, hposition, ?_⟩
  unfold Stamped at h
  rw [hworker]
  cases hw : s.worker <;> rw [hw] at h <;> dsimp only at h ⊢ <;> omega

theorem Stamped.workerStep (h : s.Stamped) : (s.workerStep a).Stamped := by
  unfold Stamped at h
  unfold Transport.workerStep
  cases hw : s.worker with
  | top =>
    dsimp only
    split
    · exact le_refl s.generation
    · rw [Stamped, hw]
      trivial
  | sampled begun =>
    rw [hw] at h
    dsimp only at h ⊢
    split
    · trivial
    · split
      · exact h
      · exact le_refl s.generation
  | finishing begun =>
    dsimp only
    split <;> trivial
  | loaded p =>
    rw [hw] at h
    dsimp only at h ⊢
    split
    · exact h
    · trivial
  | filled p =>
    rw [hw] at h
    dsimp only at h ⊢
    split
    · trivial
    · split
      · exact h
      · trivial
  | queued p =>
    dsimp only
    split <;> trivial

theorem workerStep_paused (s : Transport) (a : Answer) : (s.workerStep a).paused = s.paused := by
  unfold workerStep
  repeat' split
  all_goals rfl

/-- The generation tells an overtaken pass. -/
theorem sameGeneration_eq_false {p : Pass} (hlt : p.generation < s.generation)
    (hround : s.generation < p.generation + 2 ^ 32) : s.sameGeneration p = false := by
  unfold sameGeneration
  rw [decide_eq_false_iff_not]
  omega

theorem sameGeneration_eq_true {p : Pass} (h : p.generation = s.generation) : s.sameGeneration p = true := by
  unfold sameGeneration
  rw [h, decide_eq_true_eq]

/-- A pass that a command has overtaken changes neither the state of play nor the cursors. -/
theorem workerStep_overtaken (h : s.Overtaken) (hmeets : s.Meets a) :
    (s.workerStep a).playing = s.playing ∧ (s.workerStep a).frozenLba = s.frozenLba ∧
    (s.workerStep a).queuedLba = s.queuedLba := by
  unfold Overtaken at h
  unfold Meets at hmeets
  unfold workerStep
  cases hw : s.worker with
  | top =>
    rw [hw] at h
    exact h.elim
  | sampled begun =>
    dsimp only
    split
    · exact ⟨rfl, rfl, rfl⟩
    · split <;> exact ⟨rfl, rfl, rfl⟩
  | finishing begun =>
    rw [hw] at h hmeets
    dsimp only at h hmeets ⊢
    rw [if_neg fun hempty => absurd (hmeets hempty) (by omega)]
    exact ⟨rfl, rfl, rfl⟩
  | loaded p =>
    rw [hw] at h hmeets
    dsimp only at h hmeets ⊢
    have hread : a.read = true := by
      by_contra hfailed
      have := hmeets (Bool.eq_false_of_not_eq_true hfailed)
      omega
    rw [if_pos hread]
    exact ⟨rfl, rfl, rfl⟩
  | filled p =>
    rw [hw] at h hmeets
    dsimp only at h hmeets ⊢
    rw [sameGeneration_eq_false h hmeets, if_pos (.inl rfl)]
    exact ⟨rfl, rfl, rfl⟩
  | queued p =>
    rw [hw] at h hmeets
    dsimp only at h hmeets ⊢
    rw [sameGeneration_eq_false h hmeets]
    exact ⟨rfl, rfl, rfl⟩

/-- The worker leaves the position of a parked transport alone. -/
theorem Parked.workerStep (h : s.Parked) (hmeets : s.Meets a) :
    (s.workerStep a).Parked ∧ (s.workerStep a).paused = s.paused ∧
    (s.workerStep a).frozenLba = s.frozenLba ∧ (s.workerStep a).queuedLba = s.queuedLba := by
  obtain ⟨hstopped, hposition, hworker⟩ := h
  unfold Meets at hmeets
  unfold Transport.workerStep
  cases hw : s.worker with
  | top =>
    dsimp only
    rw [if_neg (by rw [hstopped]; simp)]
    exact ⟨⟨hstopped, hposition, by rw [hw]; trivial⟩, rfl, rfl, rfl⟩
  | sampled begun =>
    rw [hw] at hworker
    dsimp only
    split
    · exact ⟨⟨hstopped, hposition, trivial⟩, rfl, rfl, rfl⟩
    · split
      · exact ⟨⟨hstopped, hposition, hworker⟩, rfl, rfl, rfl⟩
      · exact ⟨⟨hstopped, hposition, fun _ => rfl⟩, rfl, rfl, rfl⟩
  | finishing begun =>
    rw [hw] at hworker hmeets
    dsimp only at hworker hmeets ⊢
    rw [if_neg fun hempty => absurd (hmeets hempty) (by omega)]
    exact ⟨⟨hstopped, hposition, trivial⟩, rfl, rfl, rfl⟩
  | loaded p =>
    rw [hw] at hworker hmeets
    dsimp only at hworker hmeets ⊢
    split
    · exact ⟨⟨hstopped, hposition, hworker⟩, rfl, rfl, rfl⟩
    case isFalse hread =>
      -- The pass took its snapshot after the stop, so it failed at the remembered position.
      have hbegin := hworker (hmeets (Bool.eq_false_of_not_eq_true hread))
      exact ⟨⟨rfl, hbegin, trivial⟩, rfl, hbegin.trans hposition.symm, rfl⟩
  | filled p =>
    dsimp only
    rw [if_pos (.inr (by rw [hstopped]; rfl))]
    exact ⟨⟨hstopped, hposition, trivial⟩, rfl, rfl, rfl⟩
  | queued p =>
    rw [hw] at hworker hmeets
    dsimp only at hworker hmeets ⊢
    rw [sameGeneration_eq_false hworker hmeets]
    exact ⟨⟨hstopped, hposition, trivial⟩, rfl, rfl, rfl⟩

/-! ## Stops -/

/-- What holds in every state that is reached. -/
structure Sound (s : Transport) : Prop where
  stamped : s.Stamped
  parked : s.paused = true → s.Parked

theorem Sound.stop (h : s.Sound) : s.stop.Sound ∧ s.stop.Parked ∧ s.stop.frozenLba = s.currentLba ∧
    s.stop.paused = (s.playing || s.paused) := by
  unfold Transport.stop
  split
  case isTrue hidle =>
    have hstopped : s.playing = false := by simpa using hidle.1
    refine ⟨h, h.parked hidle.2, ?_, ?_⟩
    · rw [currentLba, hstopped]
      rfl
    · rw [hstopped]
      rfl
  case isFalse hbusy =>
    have hparked : Parked { s with
        playing := false, generation := s.generation + 1, paused := s.playing,
        frozenLba := s.currentLba, queuedLba := s.currentLba, pending := 0 } :=
      h.stamped.parked rfl (Nat.lt_succ_self _) rfl rfl
    refine ⟨⟨h.stamped.of_le rfl (Nat.le_succ _), fun _ => hparked⟩, hparked, rfl, ?_⟩
    cases hplaying : s.playing with
    | true => rfl
    | false =>
      show false = s.paused
      rw [hplaying] at hbusy
      simpa using hbusy

theorem Sound.next (h : s.Sound) {e : Event} (htakes : s.Takes e) : (s.next image e).Sound := by
  cases e with
  | play start count =>
    show ((s.play image start count).getD s).Sound
    cases hplay : s.play image start count with
    | none => exact h
    | some s' =>
      obtain ⟨hworker, hgeneration, hpaused⟩ := play_some hplay
      show s'.Sound
      refine ⟨h.stamped.of_le hworker (by omega), ?_⟩
      rw [hpaused]
      exact fun hfalse => absurd hfalse Bool.false_ne_true
  | stop => exact h.stop.1
  | seek lba =>
    show ((s.seek image lba).getD s).Sound
    cases hseek : s.seek image lba with
    | none => exact h
    | some s' =>
      obtain ⟨hworker, hgeneration, hpaused⟩ := seek_some hseek
      show s'.Sound
      refine ⟨h.stamped.of_le hworker (by omega), ?_⟩
      rw [hpaused]
      exact fun hfalse => absurd hfalse Bool.false_ne_true
  | resume =>
    show (s.resume.getD s).Sound
    cases hresume : s.resume with
    | none => exact h
    | some s' =>
      obtain ⟨-, -, rfl⟩ := resume_some hresume
      exact ⟨h.stamped.of_le rfl (le_refl _), fun hfalse => absurd hfalse Bool.false_ne_true⟩
  | work a =>
    refine ⟨h.stamped.workerStep, ?_⟩
    show (s.workerStep a).paused = true → _
    rw [workerStep_paused]
    exact fun hpaused => ((h.parked hpaused).workerStep htakes.2).1

theorem Reached.sound {kind : Event → Prop} {s₀ : Transport} (h₀ : s₀.Sound) (h : Reached image kind s₀ s) : s.Sound := by
  induction h with
  | start => exact h₀
  | next e _ _ htakes ih => exact ih.next htakes

theorem sound_opened : opened.Sound :=
  ⟨trivial, fun hfalse => absurd hfalse Bool.false_ne_true⟩

/-- Further stops and steps of the worker. -/
def IsStopOrWork : Event → Prop
  | .stop | .work _ => True
  | .play .. | .seek _ | .resume => False

/-- A parked transport stays where it is through stops and steps of the worker. -/
theorem Parked.reached {s₀ : Transport} (h₀ : s₀.Parked) (hsound : s₀.Sound) (h : Reached image IsStopOrWork s₀ s) :
    s.Parked ∧ s.paused = s₀.paused ∧ s.frozenLba = s₀.frozenLba ∧ s.queuedLba = s₀.queuedLba := by
  induction h with
  | start => exact ⟨h₀, rfl, rfl, rfl⟩
  | @next s e hreached hkind htakes ih =>
    obtain ⟨hparked, hpaused, hfrozen, hqueued⟩ := ih
    cases e with
    | play start count => exact hkind.elim
    | seek lba => exact hkind.elim
    | resume => exact hkind.elim
    | work a =>
      obtain ⟨hnext, hpaused', hfrozen', hqueued'⟩ := hparked.workerStep htakes.2
      exact ⟨hnext, hpaused'.trans hpaused, hfrozen'.trans hfrozen, hqueued'.trans hqueued⟩
    | stop =>
      obtain ⟨-, hnext, hposition, hflag⟩ := (hreached.sound hsound).stop
      have hcurrent : s.currentLba = s.frozenLba := by rw [currentLba, hparked.stopped]; rfl
      rw [hcurrent] at hposition
      rw [hparked.stopped, Bool.false_or] at hflag
      refine ⟨hnext, hflag.trans hpaused, hposition.trans hfrozen, ?_⟩
      show s.stop.queuedLba = _
      rw [← hnext.position, hposition, hparked.position, hqueued]

/-! ## The range of a play -/

/-- The bytes of the buffers that the worker has put but not yet counted. -/
def uncommitted (s : Transport) : ℕ :=
  match s.worker with
  | .queued p => if p.generation = s.generation then p.sectors.toNat else 0
  | .top | .sampled _ | .finishing _ | .loaded _ | .filled _ => 0

/-- The transport plays the range from `first` to `last`. -/
structure Within (first last : Word) (s : Transport) : Prop where
  start : s.startLba = first
  finish : s.endLba = last
  first_lt : first.toNat < last.toNat
  queued : first.toNat ≤ s.queuedLba.toNat ∧ s.queuedLba.toNat ≤ last.toNat
  audible : first.toNat ≤ s.audibleLba.toNat ∧ s.audibleLba.toNat ≤ last.toNat
  frozen : first.toNat ≤ s.frozenLba.toNat ∧ s.frozenLba.toNat ≤ last.toNat
  pending : s.pending ≤ (s.queuedLba.toNat - first.toNat + s.uncommitted) * kSectorBytes
  pass : match s.worker with
    | .top | .sampled _ | .finishing _ => True
    | .loaded p | .filled p | .queued p =>
      p.generation = s.generation → p.begin = s.queuedLba ∧ s.queuedLba.toNat + p.sectors.toNat ≤ last.toNat

theorem Within.currentLba {first last : Word} (h : Within first last s) :
    first.toNat ≤ s.currentLba.toNat ∧ s.currentLba.toNat ≤ last.toNat := by
  unfold Transport.currentLba
  split
  · exact h.audible
  · exact h.frozen

/-- A position that SDL has room for lies between the start and the cursor. -/
theorem computeAudiblePosition_within (hle : s.startLba.toNat ≤ s.queuedLba.toNat) {queued : ℤ}
    (hqueued : queued ≤ ((s.queuedLba.toNat - s.startLba.toNat) * kSectorBytes : ℕ)) :
    s.startLba.toNat ≤ (s.computeAudiblePosition queued).toNat ∧
    (s.computeAudiblePosition queued).toNat ≤ s.queuedLba.toNat := by
  have hcursor := s.queuedLba.isLt
  let frames : Word := if queued > 0 then BitVec.ofNat 32 (queued.toNat / kSectorBytes) else 0
  have hframes : frames.toNat ≤ s.queuedLba.toNat - s.startLba.toNat := by
    show (if queued > 0 then BitVec.ofNat 32 (queued.toNat / kSectorBytes) else 0 : Word).toNat ≤ _
    split
    · rw [BitVec.toNat_ofNat]
      refine (Nat.mod_le _ _).trans (Nat.div_le_of_le_mul ?_)
      rw [Nat.mul_comm]
      omega
    · exact Nat.zero_le _
  show s.startLba.toNat ≤ (if s.startLba + frames < s.queuedLba then s.queuedLba - frames else s.startLba).toNat ∧
    (if s.startLba + frames < s.queuedLba then s.queuedLba - frames else s.startLba).toNat ≤ s.queuedLba.toNat
  split
  · rw [BitVec.toNat_sub_of_le (BitVec.le_def.mpr (by omega))]
    omega
  · omega

theorem generation_eq {p : Pass} (hle : p.generation ≤ s.generation) (hround : s.generation < p.generation + 2 ^ 32)
    (hsame : s.sameGeneration p = true) : p.generation = s.generation := by
  unfold sameGeneration at hsame
  rw [decide_eq_true_eq] at hsame
  omega

/-- The sectors of a snapshot end at or before the end. -/
theorem snapshot_sectors {queued last : Word} (hlt : queued < last) :
    queued.toNat + (if last - queued < kSectorsPerBuffer then last - queued else kSectorsPerBuffer).toNat ≤ last.toNat := by
  have hlt' : queued.toNat < last.toNat := hlt
  have hsub : (last - queued).toNat = last.toNat - queued.toNat := BitVec.toNat_sub_of_le (BitVec.le_def.mpr (by omega))
  split
  · omega
  case isFalse hmany =>
    have hmany' : kSectorsPerBuffer.toNat ≤ (last - queued).toNat := not_lt.mp hmany
    omega

theorem Within.workerStep {first last : Word} (h : Within first last s) (hstamped : s.Stamped)
    (htakes : s.Takes (.work a)) : Within first last (s.workerStep a) := by
  obtain ⟨hanswer, hmeets⟩ := htakes
  obtain ⟨hstart, hfinish, hlt, hqueued, haudible, hfrozen, hpending, hpass⟩ := h
  unfold Stamped at hstamped
  unfold Meets at hmeets
  unfold uncommitted at hpending
  unfold Transport.workerStep
  cases hw : s.worker with
  | top =>
    rw [hw] at hpending
    dsimp only at hpending ⊢
    split
    · have hroom : a.queued ≤ ((s.queuedLba.toNat - s.startLba.toNat) * kSectorBytes : ℕ) := by
        rw [hstart]
        exact hanswer.trans (by exact_mod_cast hpending)
      have hposition := s.computeAudiblePosition_within (by rw [hstart]; exact hqueued.1) hroom
      rw [hstart] at hposition
      exact ⟨hstart, hfinish, hlt, hqueued, ⟨hposition.1, hposition.2.trans hqueued.2⟩, hfrozen, hpending, trivial⟩
    · refine ⟨hstart, hfinish, hlt, hqueued, haudible, hfrozen, ?_, by rw [hw]; trivial⟩
      rw [uncommitted, hw]
      exact hpending
  | sampled begun =>
    rw [hw] at hpending
    dsimp only
    split
    · exact ⟨hstart, hfinish, hlt, hqueued, haudible, hfrozen, hpending, trivial⟩
    · split
      · exact ⟨hstart, hfinish, hlt, hqueued, haudible, hfrozen, hpending, trivial⟩
      case isFalse hmore =>
        refine ⟨hstart, hfinish, hlt, hqueued, haudible, hfrozen, hpending, fun _ => ⟨rfl, ?_⟩⟩
        rw [hfinish] at hmore ⊢
        exact snapshot_sectors (BitVec.not_le.mp hmore)
  | finishing begun =>
    rw [hw] at hpending
    dsimp only
    split
    · refine ⟨hstart, hfinish, hlt, hqueued, haudible, ?_, hpending, trivial⟩
      rw [hfinish]
      exact ⟨hlt.le, le_refl _⟩
    · exact ⟨hstart, hfinish, hlt, hqueued, haudible, hfrozen, hpending, trivial⟩
  | loaded p =>
    rw [hw] at hpending hmeets hpass
    dsimp only at hmeets hpass ⊢
    split
    · exact ⟨hstart, hfinish, hlt, hqueued, haudible, hfrozen, hpending, hpass⟩
    case isFalse hread =>
      obtain ⟨hbegin, -⟩ := hpass (hmeets (Bool.eq_false_of_not_eq_true hread))
      refine ⟨hstart, hfinish, hlt, hqueued, haudible, ?_, hpending, trivial⟩
      rw [hbegin]
      exact hqueued
  | filled p =>
    rw [hw] at hpending hmeets hpass hstamped
    dsimp only at hpending hmeets hpass hstamped ⊢
    split
    · exact ⟨hstart, hfinish, hlt, hqueued, haudible, hfrozen, hpending, trivial⟩
    case isFalse hcurrent =>
      push Not at hcurrent
      have hgeneration := generation_eq hstamped hmeets (by simpa using hcurrent.1)
      obtain ⟨hbegin, hsectors⟩ := hpass hgeneration
      split
      · refine ⟨hstart, hfinish, hlt, hqueued, haudible, hfrozen, ?_, hpass⟩
        show s.pending + _ ≤ (_ + (if p.generation = s.generation then p.sectors.toNat else 0)) * _
        rw [if_pos hgeneration, Nat.add_mul]
        rw [Nat.add_zero] at hpending
        exact Nat.add_le_add_right hpending _
      · refine ⟨hstart, hfinish, hlt, hqueued, haudible, ?_, hpending, trivial⟩
        rw [hbegin]
        exact hqueued
  | queued p =>
    rw [hw] at hpending hmeets hpass hstamped
    dsimp only at hpending hmeets hpass hstamped ⊢
    split
    case isTrue hsame =>
      have hgeneration := generation_eq hstamped hmeets hsame
      obtain ⟨hbegin, hsectors⟩ := hpass hgeneration
      have := last.isLt
      have hcursor : (p.begin + p.sectors).toNat = s.queuedLba.toNat + p.sectors.toNat := by
        rw [hbegin, BitVec.toNat_add]
        omega
      rw [if_pos hgeneration] at hpending
      refine ⟨hstart, hfinish, hlt, ?_, haudible, hfrozen, ?_, trivial⟩
      · show _ ≤ (p.begin + p.sectors).toNat ∧ (p.begin + p.sectors).toNat ≤ _
        omega
      · show s.pending ≤ ((p.begin + p.sectors).toNat - _ + 0) * _
        rw [hcursor, Nat.add_zero, Nat.sub_add_comm hqueued.1]
        exact hpending
    case isFalse hother =>
      refine ⟨hstart, hfinish, hlt, hqueued, haudible, hfrozen, ?_, trivial⟩
      rw [if_neg fun hgeneration => hother (sameGeneration_eq_true hgeneration)] at hpending
      exact hpending

def IsWork : Event → Prop
  | .work _ => True
  | .play .. | .stop | .seek _ | .resume => False

/-- A step that puts sectors into the stream, with the sectors. -/
def Puts (s : Transport) (a : Answer) (lba : Word) : Prop :=
  match s.worker with
  | .filled p => s.sameGeneration p = true ∧ s.playing = true ∧ a.put = true ∧
      p.begin.toNat ≤ lba.toNat ∧ lba.toNat < p.begin.toNat + p.sectors.toNat
  | .top | .sampled _ | .finishing _ | .loaded _ | .queued _ => False

/-- The end of an accepted range is exact when the sum of its start and its length fits. -/
theorem play_end {start count : Word} {s' : Transport} (h : s.play image start count = some s') :
    ∃ track, image.findTrackByLba start = some track ∧ s'.startLba = start ∧
      (s'.endLba.toNat = min (start.toNat + count.toNat) track.endLba.toNat ↔ start.toNat + count.toNat < 2 ^ 32) ∧
      (start.toNat + count.toNat < 2 ^ 32 → s.Stamped → Within start s'.endLba s') := by
  unfold play at h
  split at h
  case h_1 => cases h
  case h_2 track htrack =>
    split at h
    case isTrue => cases h
    case isFalse haccepted =>
      push Not at haccepted
      obtain ⟨-, hlogical, hend⟩ := ChdCdImage.findTrackByLba_some htrack
      have hcount : 0 < count.toNat := by
        apply Nat.pos_of_ne_zero
        intro hzero
        exact haccepted.2 (BitVec.eq_of_toNat_eq hzero)
      have hsum : (start + count).toNat = (start.toNat + count.toNat) % 2 ^ 32 := BitVec.toNat_add _ _
      have hcases : ∀ last : Word, (if track.endLba < start + count then track.endLba else start + count) = last →
          (last.toNat = track.endLba.toNat ∧ track.endLba.toNat < (start + count).toNat) ∨
          (last.toNat = (start + count).toNat ∧ (start + count).toNat ≤ track.endLba.toNat) := by
        rintro last rfl
        split
        case isTrue hlt => exact .inl ⟨rfl, hlt⟩
        case isFalse hle => exact .inr ⟨rfl, not_lt.mp hle⟩
      have hstart := start.isLt
      have hbound := count.isLt
      cases h
      refine ⟨track, htrack, rfl, ?_, ?_⟩
      · obtain ⟨hlast, hlt⟩ | ⟨hlast, hle⟩ := hcases _ rfl
        · rw [hlast]
          omega
        · rw [hlast]
          omega
      · intro hfits hstamped
        have hlast : start.toNat < (if track.endLba < start + count then track.endLba else start + count).toNat := by
          obtain ⟨hlast, hlt⟩ | ⟨hlast, hle⟩ := hcases _ rfl
          · omega
          · omega
        refine ⟨rfl, rfl, hlast, ⟨le_refl _, hlast.le⟩, ⟨le_refl _, hlast.le⟩, ⟨le_refl _, hlast.le⟩, Nat.zero_le _, ?_⟩
        -- A pass under way has an older generation.
        unfold Stamped at hstamped
        dsimp only
        cases hw : s.worker <;> rw [hw] at hstamped <;> dsimp only at hstamped ⊢ <;> omega

theorem Within.reached {first last : Word} {s₀ : Transport} (h₀ : Within first last s₀) (hsound : s₀.Sound)
    (h : Reached image IsWork s₀ s) : Within first last s := by
  induction h with
  | start => exact h₀
  | next e hreached hkind htakes ih =>
    cases e with
    | work a => exact ih.workerStep (hreached.sound hsound).stamped htakes
    | play start count => exact hkind.elim
    | stop => exact hkind.elim
    | seek lba => exact hkind.elim
    | resume => exact hkind.elim

/-- The sectors that are put lie in the range. -/
theorem Within.puts {first last : Word} (h : Within first last s) (hstamped : s.Stamped) (htakes : s.Takes (.work a))
    {lba : Word} (hputs : s.Puts a lba) : first.toNat ≤ lba.toNat ∧ lba.toNat < last.toNat := by
  obtain ⟨-, hmeets⟩ := htakes
  have hqueued := h.queued
  have hpass := h.pass
  unfold Stamped at hstamped
  unfold Meets at hmeets
  unfold Puts at hputs
  cases hw : s.worker with
  | filled p =>
    rw [hw] at hputs hmeets hstamped hpass
    obtain ⟨hsame, -, -, hfirst, hlast⟩ := hputs
    obtain ⟨hbegin, hsectors⟩ := hpass (generation_eq hstamped hmeets hsame)
    rw [hbegin] at hfirst hlast
    omega
  | top => rw [hw] at hputs; exact hputs.elim
  | sampled begun => rw [hw] at hputs; exact hputs.elim
  | finishing begun => rw [hw] at hputs; exact hputs.elim
  | loaded p => rw [hw] at hputs; exact hputs.elim
  | queued p => rw [hw] at hputs; exact hputs.elim

/-- The transport, in every state of every interleaving whose steps meet the condition. -/
theorem cd_audio_transport {s : Transport} (h : Reached image (fun _ => True) opened s) :
    (∀ a, s.Takes (.work a) → s.Overtaken →
      (s.workerStep a).playing = s.playing ∧ (s.workerStep a).frozenLba = s.frozenLba ∧
      (s.workerStep a).queuedLba = s.queuedLba) ∧
    (∀ s', Reached image IsStopOrWork s.stop s' →
      s'.paused = s.stop.paused ∧ s'.frozenLba = s.currentLba ∧ s'.queuedLba = s.currentLba ∧
      s'.currentLba = s.currentLba ∧
      (s'.paused = true → s'.queuedLba < s'.endLba →
        ∃ s'', s'.resume = some s'' ∧ s''.playing = true ∧ s''.queuedLba = s.currentLba)) ∧
    (∀ start count s₀, s.play image start count = some s₀ →
      ∃ track, image.findTrackByLba start = some track ∧ s₀.startLba = start ∧
        (s₀.endLba.toNat = min (start.toNat + count.toNat) track.endLba.toNat ↔ start.toNat + count.toNat < 2 ^ 32) ∧
        (start.toNat + count.toNat < 2 ^ 32 → ∀ s', Reached image IsWork s₀ s' →
          s'.startLba = start ∧ s'.endLba = s₀.endLba ∧
          (start.toNat ≤ s'.currentLba.toNat ∧ s'.currentLba.toNat ≤ s₀.endLba.toNat) ∧
          ∀ a lba, s'.Takes (.work a) → s'.Puts a lba → start.toNat ≤ lba.toNat ∧ lba.toNat < s₀.endLba.toNat)) := by
  have hsound := h.sound sound_opened
  refine ⟨?_, ?_, ?_⟩
  · intro a htakes hovertaken
    exact workerStep_overtaken hovertaken htakes.2
  · intro s' hreached
    obtain ⟨hsound', hparked, hposition, -⟩ := hsound.stop
    obtain ⟨hparked', hpaused, hfrozen, hqueued⟩ := hparked.reached hsound' hreached
    have hcursor : s'.queuedLba = s.currentLba := by
      rw [← hparked'.position, hfrozen, hposition]
    refine ⟨hpaused, hfrozen.trans hposition, hcursor, ?_, ?_⟩
    · rw [currentLba, hparked'.stopped]
      exact hfrozen.trans hposition
    · intro hpaused' hmore
      refine ⟨{ s' with paused := false, playing := true }, ?_, rfl, hcursor⟩
      rw [resume, if_neg]
      push Not
      exact ⟨by rw [hpaused']; simp, BitVec.not_le.mpr hmore⟩
  · intro start count s₀ hplay
    obtain ⟨track, htrack, hstart, hend, hwithin⟩ := play_end hplay
    have hsound₀ : s₀.Sound := by
      have hnext : (s.next image (.play start count)).Sound := hsound.next trivial
      rwa [Transport.next, hplay] at hnext
    refine ⟨track, htrack, hstart, hend, ?_⟩
    intro hfits s' hreached
    have hinside := (hwithin hfits hsound.stamped).reached hsound₀ hreached
    refine ⟨hinside.start, hinside.finish, hinside.currentLba, ?_⟩
    intro a lba htakes hputs
    exact hinside.puts (hreached.sound hsound₀).stamped htakes hputs

/-- A disc with one audio track of 2000 frames. -/
def sampleDisc : ChdCdImage :=
  { header := ⟨2352, 2352⟩
    tracks := [{ number := 1, type := .audio, audio := true, physicalLba := 0, storedFrames := 2000, logicalLba := 0,
                 dataStartLba := 0, startLba := 0, endLba := 2000, pregapFrames := 0, pregapInFile := false }]
    leadOutLba := 2000
    framesPerHunk := 1
    hunk := fun _ => 0
    cachedHunk := 2 ^ 32 - 1 }

/-- A pass of the first play is under way when the second begins. -/
def overtakenSample : Transport :=
  ((((opened.next sampleDisc (.play 100 50)).next sampleDisc (.work ⟨0, true, true⟩)).next sampleDisc
    (.work ⟨0, true, true⟩)).next sampleDisc (.play 1000 50))

theorem reached_overtakenSample : Reached sampleDisc (fun _ => True) opened overtakenSample := by
  refine .next _ (.next _ (.next _ (.next _ .start trivial ?_) trivial ?_) trivial ?_) trivial ?_
  · trivial
  · exact ⟨by decide, trivial⟩
  · exact ⟨by decide, trivial⟩
  · trivial

/-- A read of the first play that succeeds too late changes nothing of the second. -/
theorem cd_audio_transport_sample :
    (overtakenSample.workerStep ⟨0, true, true⟩).playing = overtakenSample.playing ∧
    (overtakenSample.workerStep ⟨0, true, true⟩).frozenLba = overtakenSample.frozenLba ∧
    (overtakenSample.workerStep ⟨0, true, true⟩).queuedLba = overtakenSample.queuedLba := by
  refine (cd_audio_transport reached_overtakenSample).1 ⟨0, true, true⟩ ⟨by decide, ?_⟩ ?_
  · exact fun hread => absurd hread (by decide)
  · show (1 : ℕ) < 2
    decide

/-- A read of the first play that fails ends the second and moves the reported position out of its range, and a
length that reaches past `2 ^ 32` gives an end before the start. -/
theorem cd_audio_transport_fails :
    (Reached sampleDisc (fun _ => True) opened overtakenSample ∧ overtakenSample.Overtaken ∧
      overtakenSample.playing = true ∧ (overtakenSample.workerStep ⟨0, false, true⟩).playing = false ∧
      overtakenSample.frozenLba = 1000 ∧ (overtakenSample.workerStep ⟨0, false, true⟩).frozenLba = 100 ∧
      (overtakenSample.workerStep ⟨0, false, true⟩).currentLba = 100) ∧
    (opened.play sampleDisc 100 0xFFFFFFFF).map (fun s => (s.startLba, s.endLba)) = some (100, 99) := by
  refine ⟨⟨reached_overtakenSample, ?_, by decide, by decide, by decide, by decide, by decide⟩, by decide⟩
  show (1 : ℕ) < 2
  decide

end Transport

end CdAudio

end Repiu.Engine
