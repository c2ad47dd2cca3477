import Mathlib.Data.List.DropRight
import Repiu.TimedHistory

/-!
# The input timeline

The history of pressed keys that timer interrupts are replayed against. A tick
waits in a queue with the time it was due; its interrupt takes it off the queue
into a replay frame, and reads inside the handler are answered with the keys as
they were at that time. The history is pruned up to the oldest time that can
still be asked for.
-/

namespace Repiu.Engine

open Repiu.TimedHistory

/-- The logical inputs, in the order of their mask bits. -/
inductive JammaInputKey where
  | p1UpLeft | p1UpRight | p1DownLeft | p1DownRight | p1Center | coin1 | test | service | clear
  | p2UpLeft | p2UpRight | p2DownLeft | p2DownRight | p2Center | count
deriving DecidableEq

def jammaInputKeyMask (key : JammaInputKey) : BitVec 16 := 1#16 <<< key.ctorIdx

structure HistoryEntry where
  timestampNanoseconds : ℕ
  pressedMask : BitVec 16
deriving DecidableEq

structure ReplayFrame where
  timestampNanoseconds : ℕ
  interruptFrameEsp : BitVec 32
  interruptedEip : BitVec 32
  beginIndex : UInt64
deriving DecidableEq

def kHistoryCapacity : ℕ := 256
def kDueCapacity : ℕ := 64
def kReplayFrameStaleBegins : UInt64 := 64

/-! ## Due ticks and replay frames -/

/-- The part of the timeline that holds ticks and the frames of running handlers, oldest first. -/
structure TickReplay where
  dueTimestamps : List ℕ := []
  lastDueTimestamp : ℕ := 0
  hasDueTimestamp : Bool := false
  replayFrames : List ReplayFrame := []
  replayBeginCount : UInt64 := 0
deriving DecidableEq

namespace TickReplay

/-- Frames leave from the top once the guest is seen above them. -/
def retireReplayFrames (r : TickReplay) (currentEsp : BitVec 32) : TickReplay :=
  { r with replayFrames := r.replayFrames.rdropWhile fun frame => frame.interruptFrameEsp < currentEsp }

/-- Frames leave from anywhere once enough later interrupts have begun. -/
def retireStaleReplayFrames (r : TickReplay) : TickReplay :=
  { r with
    replayFrames := r.replayFrames.filter fun frame =>
      ¬(r.replayBeginCount - frame.beginIndex > kReplayFrameStaleBegins) }

/-- A tick joins the queue, unless the queue is full. -/
def enqueueTimerTick (r : TickReplay) (dueTimestamp : ℕ) : Option TickReplay :=
  if r.dueTimestamps.length = kDueCapacity then none
  else
    some { r with
      dueTimestamps := r.dueTimestamps ++ [dueTimestamp]
      lastDueTimestamp := dueTimestamp
      hasDueTimestamp := true }

def clearTimerTicks (r : TickReplay) : TickReplay := { r with dueTimestamps := [], replayFrames := [] }

/-- The oldest tick moves into a frame of its own; the oldest frame makes room where there is none. -/
def pushReplayFrame (r : TickReplay) (interruptFrameEsp interruptedEip : BitVec 32) : Option TickReplay :=
  match r.dueTimestamps with
  | [] => none
  | due :: rest =>
    let frames := if r.replayFrames.length = kDueCapacity then r.replayFrames.tail else r.replayFrames
    some { r with
      dueTimestamps := rest
      replayBeginCount := r.replayBeginCount + 1
      replayFrames := frames ++ [⟨due, interruptFrameEsp, interruptedEip, r.replayBeginCount + 1⟩] }

/-- The topmost frame at this stack pointer leaves, with all above it. -/
def endTimerInterrupt (r : TickReplay) (interruptFrameEsp : BitVec 32) : Option TickReplay :=
  match r.replayFrames.rdropWhile fun frame => frame.interruptFrameEsp ≠ interruptFrameEsp with
  | [] => none
  | frames => some { r with replayFrames := frames.dropLast }

/-- The older of a cutoff and the time of a frame. -/
def olderCutoff (cutoff : Option ℕ) (frame : ReplayFrame) : Option ℕ :=
  match cutoff with
  | none => some frame.timestampNanoseconds
  | some oldest =>
    if frame.timestampNanoseconds < oldest then some frame.timestampNanoseconds else some oldest

/-- The time up to which the history is pruned. -/
def pruneCutoff (r : TickReplay) : Option ℕ :=
  match r.replayFrames.foldl olderCutoff r.dueTimestamps.head? with
  | some oldest => some oldest
  | none => if r.hasDueTimestamp then some r.lastDueTimestamp else none

end TickReplay

/-! ## The timeline -/

structure JammaInputTimeline where
  history : List HistoryEntry
  historyFloorTimestamp : ℕ
  historyFloorPressedMask : BitVec 16
  latestPressedMask : BitVec 16
  replay : TickReplay
  historyOverflowCount : ℕ
  historyCoverageMissCount : ℕ

namespace JammaInputTimeline

def reset (timestamp : ℕ) (pressedMask : BitVec 16) : JammaInputTimeline where
  history := []
  historyFloorTimestamp := timestamp
  historyFloorPressedMask := pressedMask
  latestPressedMask := pressedMask
  replay := {}
  historyOverflowCount := 0
  historyCoverageMissCount := 0

/-- The entries up to the cutoff go; the last of them becomes the floor. -/
def pruneHistory (t : JammaInputTimeline) : JammaInputTimeline :=
  match t.replay.pruneCutoff with
  | none => t
  | some cutoff =>
    match (t.history.takeWhile fun entry => entry.timestampNanoseconds ≤ cutoff).getLast? with
    | none => t
    | some floor =>
      { t with
        historyFloorTimestamp := floor.timestampNanoseconds
        historyFloorPressedMask := floor.pressedMask
        history := t.history.dropWhile fun entry => entry.timestampNanoseconds ≤ cutoff }

/-- Room for one more entry: the oldest becomes the floor where the history is full. -/
def makeRoom (t : JammaInputTimeline) : JammaInputTimeline :=
  match t.history with
  | oldest :: rest =>
    if t.history.length = kHistoryCapacity then
      { t with
        historyFloorTimestamp := oldest.timestampNanoseconds
        historyFloorPressedMask := oldest.pressedMask
        history := rest
        historyOverflowCount := t.historyOverflowCount + 1 }
    else t
  | [] => t

def recordState (t : JammaInputTimeline) (timestamp : ℕ) (pressedMask : BitVec 16) : JammaInputTimeline :=
  if pressedMask = t.latestPressedMask then t
  else
    let timestamp := clamp HistoryEntry.timestampNanoseconds t.history timestamp
    let t := t.pruneHistory.makeRoom
    { t with history := t.history ++ [⟨timestamp, pressedMask⟩], latestPressedMask := pressedMask }

/-- The mask after a key edge. -/
def edgeMask (latest : BitVec 16) (key : JammaInputKey) (pressed : Bool) : BitVec 16 :=
  if pressed then latest ||| jammaInputKeyMask key else latest &&& ~~~jammaInputKeyMask key

/-- The answer for a time; a time before the floor is counted as a miss. -/
def stateAt (t : JammaInputTimeline) (timestamp : ℕ) : JammaInputTimeline × BitVec 16 :=
  ({ t with
      historyCoverageMissCount := t.historyCoverageMissCount +
        if timestamp < t.historyFloorTimestamp then 1 else 0 },
    TimedHistory.stateAt HistoryEntry.timestampNanoseconds HistoryEntry.pressedMask
      t.historyFloorPressedMask t.history timestamp)

end JammaInputTimeline

/-- The operations on a timeline. -/
inductive TimelineEvent where
  | recordKeyEdge (timestamp : ℕ) (key : JammaInputKey) (pressed : Bool)
  | recordAllReleased (timestamp : ℕ)
  | enqueueTimerTick (dueTimestamp : ℕ)
  | beginTimerInterrupt (preInterruptEsp interruptFrameEsp interruptedEip : BitVec 32)
  | endTimerInterrupt (interruptFrameEsp : BitVec 32)
  | clearTimerTicks
  | tryReplayPressedMask (currentEsp : BitVec 32)

namespace JammaInputTimeline

/-- One operation, with the mask that it returns. -/
def step (t : JammaInputTimeline) : TimelineEvent → JammaInputTimeline × Option (BitVec 16)
  | .recordKeyEdge timestamp key pressed =>
    if key = .count then (t, none)
    else (t.recordState timestamp (edgeMask t.latestPressedMask key pressed), none)
  | .recordAllReleased timestamp => (t.recordState timestamp 0, none)
  | .enqueueTimerTick due =>
    match t.replay.enqueueTimerTick due with
    | none => (t, none)
    | some replay => ({ t with replay := replay }.pruneHistory, none)
  | .beginTimerInterrupt preEsp frameEsp eip =>
    let replay := (t.replay.retireReplayFrames preEsp).retireStaleReplayFrames
    match replay.pushReplayFrame frameEsp eip with
    | none => ({ t with replay := replay }, none)
    | some replay => ({ t with replay := replay }.pruneHistory, none)
  | .endTimerInterrupt frameEsp =>
    match t.replay.endTimerInterrupt frameEsp with
    | none => (t, none)
    | some replay => ({ t with replay := replay }.pruneHistory, none)
  | .clearTimerTicks => ({ t with replay := t.replay.clearTimerTicks }.pruneHistory, none)
  | .tryReplayPressedMask esp =>
    let t := { t with replay := (t.replay.retireReplayFrames esp).retireStaleReplayFrames }.pruneHistory
    match t.replay.replayFrames.getLast? with
    | none => (t, none)
    | some frame =>
      let answer := t.stateAt frame.timestampNanoseconds
      (answer.1, some answer.2)

/-- Operations in a row, with the masks that they return. -/
def run (t : JammaInputTimeline) : List TimelineEvent → JammaInputTimeline × List (Option (BitVec 16))
  | [] => (t, [])
  | event :: events =>
    let first := t.step event
    let rest := first.1.run events
    (rest.1, first.2 :: rest.2)

end JammaInputTimeline

/-! ## The timeline that never prunes -/

/-- A timeline with a record of every state. -/
structure UnprunedTimeline where
  initialPressedMask : BitVec 16
  recorded : List HistoryEntry
  latestPressedMask : BitVec 16
  replay : TickReplay

namespace UnprunedTimeline

def reset (pressedMask : BitVec 16) : UnprunedTimeline := ⟨pressedMask, [], pressedMask, {}⟩

def recordState (u : UnprunedTimeline) (timestamp : ℕ) (pressedMask : BitVec 16) : UnprunedTimeline :=
  if pressedMask = u.latestPressedMask then u
  else
    { u with
      recorded := u.recorded ++
        [⟨clamp HistoryEntry.timestampNanoseconds u.recorded timestamp, pressedMask⟩]
      latestPressedMask := pressedMask }

/-- The last recorded state at or before a time. -/
def stateAt (u : UnprunedTimeline) (timestamp : ℕ) : BitVec 16 :=
  TimedHistory.stateAt HistoryEntry.timestampNanoseconds HistoryEntry.pressedMask
    u.initialPressedMask u.recorded timestamp

/-- One operation, with the mask that it returns. -/
def step (u : UnprunedTimeline) : TimelineEvent → UnprunedTimeline × Option (BitVec 16)
  | .recordKeyEdge timestamp key pressed =>
    if key = .count then (u, none)
    else (u.recordState timestamp (JammaInputTimeline.edgeMask u.latestPressedMask key pressed), none)
  | .recordAllReleased timestamp => (u.recordState timestamp 0, none)
  | .enqueueTimerTick due => ({ u with replay := (u.replay.enqueueTimerTick due).getD u.replay }, none)
  | .beginTimerInterrupt preEsp frameEsp eip =>
    let replay := (u.replay.retireReplayFrames preEsp).retireStaleReplayFrames
    ({ u with replay := (replay.pushReplayFrame frameEsp eip).getD replay }, none)
  | .endTimerInterrupt frameEsp =>
    ({ u with replay := (u.replay.endTimerInterrupt frameEsp).getD u.replay }, none)
  | .clearTimerTicks => ({ u with replay := u.replay.clearTimerTicks }, none)
  | .tryReplayPressedMask esp =>
    let u := { u with replay := (u.replay.retireReplayFrames esp).retireStaleReplayFrames }
    (u, u.replay.replayFrames.getLast?.map fun frame => u.stateAt frame.timestampNanoseconds)

/-- Operations in a row, with the masks that they return. -/
def run (u : UnprunedTimeline) : List TimelineEvent → UnprunedTimeline × List (Option (BitVec 16))
  | [] => (u, [])
  | event :: events =>
    let first := u.step event
    let rest := first.1.run events
    (rest.1, first.2 :: rest.2)

end UnprunedTimeline

/-! ## The times that can still be asked for -/

namespace TickReplay

/-- Every tick to come is due at or after this time, if the first one is at or after `b`. -/
def dueBound (b : ℕ) (r : TickReplay) : ℕ := if r.hasDueTimestamp then r.lastDueTimestamp else b

/-- A handler can still read the state at this time: its tick runs, waits or is to come. -/
def Asked (b : ℕ) (r : TickReplay) (q : ℕ) : Prop :=
  q ∈ r.dueTimestamps ∨ (∃ frame ∈ r.replayFrames, frame.timestampNanoseconds = q) ∨ r.dueBound b ≤ q

/-- The queue is sorted, and nothing is later than the last tick. -/
structure Ordered (r : TickReplay) : Prop where
  sorted : r.dueTimestamps.Pairwise (· ≤ ·)
  due : ∀ d ∈ r.dueTimestamps, r.hasDueTimestamp = true ∧ d ≤ r.lastDueTimestamp
  frames : ∀ frame ∈ r.replayFrames,
    r.hasDueTimestamp = true ∧ frame.timestampNanoseconds ≤ r.lastDueTimestamp

/-- `r'` keeps the order and asks for no new time. -/
structure Narrows (b : ℕ) (r r' : TickReplay) : Prop where
  ordered : r'.Ordered
  asked : ∀ q, r'.Asked b q → r.Asked b q

variable {b : ℕ} {r : TickReplay}

theorem narrows_of_sublist (h : r.Ordered) {due : List ℕ} {frames : List ReplayFrame}
    (hdue : due.Sublist r.dueTimestamps) (hframes : frames.Sublist r.replayFrames) :
    Narrows b r { r with dueTimestamps := due, replayFrames := frames } where
  ordered :=
    ⟨h.sorted.sublist hdue, fun d hd => h.due d (hdue.mem hd), fun f hf => h.frames f (hframes.mem hf)⟩
  asked := by
    rintro q (hq | ⟨f, hf, rfl⟩ | hq)
    · exact .inl (hdue.mem hq)
    · exact .inr (.inl ⟨f, hframes.mem hf, rfl⟩)
    · exact .inr (.inr hq)

theorem narrows_retireReplayFrames (h : r.Ordered) (esp : BitVec 32) : Narrows b r (r.retireReplayFrames esp) :=
  narrows_of_sublist h (List.Sublist.refl _) (List.rdropWhile_prefix _ _).sublist

theorem narrows_retireStaleReplayFrames (h : r.Ordered) : Narrows b r r.retireStaleReplayFrames :=
  narrows_of_sublist h (List.Sublist.refl _) List.filter_sublist

theorem Narrows.trans {r' r'' : TickReplay} (h : Narrows b r r') (h' : Narrows b r' r'') : Narrows b r r'' :=
  ⟨h'.ordered, fun q hq => h.asked q (h'.asked q hq)⟩

theorem narrows_retire (h : r.Ordered) (esp : BitVec 32) :
    Narrows b r (r.retireReplayFrames esp).retireStaleReplayFrames :=
  (narrows_retireReplayFrames h esp).trans
    (narrows_retireStaleReplayFrames (narrows_retireReplayFrames (b := b) h esp).ordered)

theorem narrows_clearTimerTicks (h : r.Ordered) : Narrows b r r.clearTimerTicks :=
  narrows_of_sublist h (List.nil_sublist _) (List.nil_sublist _)

theorem narrows_endTimerInterrupt (h : r.Ordered) {esp : BitVec 32} {r' : TickReplay}
    (hr : r.endTimerInterrupt esp = some r') : Narrows b r r' := by
  unfold endTimerInterrupt at hr
  split at hr
  · cases hr
  · rw [← Option.some.inj hr]
    exact narrows_of_sublist h (List.Sublist.refl _)
      ((List.dropLast_sublist _).trans (List.rdropWhile_prefix _ _).sublist)

/-- A tick that is not before the last one asks for nothing new. -/
theorem narrows_enqueueTimerTick (h : r.Ordered) {d : ℕ} (hd : r.dueBound b ≤ d) {r' : TickReplay}
    (hr : r.enqueueTimerTick d = some r') : Narrows b r r' := by
  unfold enqueueTimerTick at hr
  split at hr
  case isTrue => cases hr
  case isFalse =>
    rw [← Option.some.inj hr]
    have hlast : r.hasDueTimestamp = true → r.lastDueTimestamp ≤ d := by
      intro hhas
      rwa [dueBound, if_pos hhas] at hd
    refine ⟨⟨?_, ?_, ?_⟩, ?_⟩
    · rw [List.pairwise_append]
      refine ⟨h.sorted, List.pairwise_singleton .., fun x hx y hy => ?_⟩
      rw [List.mem_singleton.mp hy]
      exact (h.due x hx).2.trans (hlast (h.due x hx).1)
    · intro x hx
      rcases List.mem_append.mp hx with hx | hx
      · exact ⟨rfl, (h.due x hx).2.trans (hlast (h.due x hx).1)⟩
      · exact ⟨rfl, (List.mem_singleton.mp hx).le⟩
    · intro f hf
      exact ⟨rfl, (h.frames f hf).2.trans (hlast (h.frames f hf).1)⟩
    · rintro q (hq | hq | hq)
      · rcases List.mem_append.mp hq with hq | hq
        · exact .inl hq
        · rw [List.mem_singleton.mp hq]
          exact .inr (.inr hd)
      · exact .inr (.inl hq)
      · exact .inr (.inr (hd.trans hq))

/-- The tick of a new frame waited in the queue. -/
theorem narrows_pushReplayFrame (h : r.Ordered) {esp eip : BitVec 32} {r' : TickReplay}
    (hr : r.pushReplayFrame esp eip = some r') : Narrows b r r' := by
  unfold pushReplayFrame at hr
  split at hr
  case h_1 => cases hr
  case h_2 due rest hdue =>
    rw [← Option.some.inj hr]
    have hframes : ∀ f ∈ (if r.replayFrames.length = kDueCapacity then r.replayFrames.tail else r.replayFrames),
        f ∈ r.replayFrames := by
      intro f hf
      split at hf
      · exact List.mem_of_mem_tail hf
      · exact hf
    have hwaits : due ∈ r.dueTimestamps := by
      rw [hdue]
      exact List.mem_cons_self ..
    have hrest : ∀ d ∈ rest, d ∈ r.dueTimestamps := by
      intro d hd
      rw [hdue]
      exact List.mem_cons_of_mem _ hd
    have hsorted := h.sorted
    rw [hdue, List.pairwise_cons] at hsorted
    refine ⟨⟨hsorted.2, fun d hd => h.due d (hrest d hd), ?_⟩, ?_⟩
    · intro f hf
      rcases List.mem_append.mp hf with hf | hf
      · exact h.frames f (hframes f hf)
      · rw [List.mem_singleton.mp hf]
        exact h.due due hwaits
    · rintro q (hq | ⟨f, hf, rfl⟩ | hq)
      · exact .inl (hrest q hq)
      · rcases List.mem_append.mp hf with hf | hf
        · exact .inr (.inl ⟨f, hframes f hf, rfl⟩)
        · rw [List.mem_singleton.mp hf]
          exact .inl hwaits
      · exact .inr (.inr hq)

theorem olderCutoff_spec (cutoff : Option ℕ) (frame : ReplayFrame) :
    ∃ oldest, olderCutoff cutoff frame = some oldest ∧ oldest ≤ frame.timestampNanoseconds ∧
      (∀ x, cutoff = some x → oldest ≤ x) ∧ (cutoff = some oldest ∨ frame.timestampNanoseconds = oldest) := by
  cases cutoff with
  | none => exact ⟨_, rfl, le_refl _, by simp, .inr rfl⟩
  | some x =>
    by_cases hx : frame.timestampNanoseconds < x
    · exact ⟨_, if_pos hx, le_refl _, fun y hy => Option.some.inj hy ▸ hx.le, .inr rfl⟩
    · exact ⟨x, if_neg hx, not_lt.mp hx, fun y hy => (Option.some.inj hy).le, .inl rfl⟩

/-- The minimum over the frames is one of them or the start, and none is below it. -/
theorem foldl_olderCutoff {frames : List ReplayFrame} {start : Option ℕ} {cutoff : ℕ}
    (h : frames.foldl olderCutoff start = some cutoff) :
    (start = some cutoff ∨ ∃ frame ∈ frames, frame.timestampNanoseconds = cutoff) ∧
    (∀ oldest, start = some oldest → cutoff ≤ oldest) ∧
    ∀ frame ∈ frames, cutoff ≤ frame.timestampNanoseconds := by
  induction frames generalizing start with
  | nil =>
    rw [List.foldl_nil] at h
    refine ⟨.inl h, fun oldest ho => ?_, by simp⟩
    rw [h] at ho
    exact (Option.some.inj ho).le
  | cons frame frames ih =>
    rw [List.foldl_cons] at h
    obtain ⟨hfrom, hstart, hframes⟩ := ih h
    obtain ⟨oldest, holdest, hframe, hbelow, hof⟩ := olderCutoff_spec start frame
    have hle := hstart oldest holdest
    refine ⟨?_, fun x hx => hle.trans (hbelow x hx), ?_⟩
    · rcases hfrom with hfrom | ⟨f, hf, hts⟩
      · rw [holdest] at hfrom
        rw [← Option.some.inj hfrom]
        rcases hof with hof | hof
        · exact .inl hof
        · exact .inr ⟨frame, List.mem_cons_self .., hof⟩
      · exact .inr ⟨f, List.mem_cons_of_mem _ hf, hts⟩
    · rw [List.forall_mem_cons]
      exact ⟨hle.trans hframe, hframes⟩

theorem foldl_olderCutoff_none {frames : List ReplayFrame} {start : Option ℕ}
    (h : frames.foldl olderCutoff start = none) : start = none ∧ frames = [] := by
  induction frames generalizing start with
  | nil => exact ⟨h, rfl⟩
  | cons frame frames ih =>
    obtain ⟨oldest, holdest, -⟩ := olderCutoff_spec start frame
    have := (ih h).1
    rw [holdest] at this
    cases this

/-- No time that can be asked for lies before the cutoff. -/
theorem pruneCutoff_le (h : r.Ordered) {cutoff : ℕ} (hcutoff : r.pruneCutoff = some cutoff) {q : ℕ}
    (hq : r.Asked b q) : cutoff ≤ q := by
  unfold pruneCutoff at hcutoff
  split at hcutoff
  case h_1 oldest hfold =>
    obtain rfl := Option.some.inj hcutoff
    obtain ⟨hfrom, hhead, hframes⟩ := foldl_olderCutoff hfold
    -- the cutoff is the time of a tick, so it is not after the last one
    have hlast : r.hasDueTimestamp = true ∧ oldest ≤ r.lastDueTimestamp := by
      rcases hfrom with hfrom | ⟨f, hf, rfl⟩
      · exact h.due oldest (List.mem_of_mem_head? hfrom)
      · exact h.frames f hf
    rcases hq with hq | ⟨f, hf, rfl⟩ | hq
    · cases hdue : r.dueTimestamps with
      | nil =>
        rw [hdue] at hq
        cases hq
      | cons first rest =>
        have hsorted := h.sorted
        rw [hdue, List.pairwise_cons] at hsorted
        refine (hhead first (by rw [hdue]; rfl)).trans ?_
        rw [hdue, List.mem_cons] at hq
        rcases hq with rfl | hq
        · exact le_refl _
        · exact hsorted.1 q hq
    · exact hframes f hf
    · rw [dueBound, if_pos hlast.1] at hq
      exact hlast.2.trans hq
  case h_2 hfold =>
    rw [Option.ite_none_right_eq_some] at hcutoff
    obtain ⟨hhas, hcutoff⟩ := hcutoff
    obtain rfl := Option.some.inj hcutoff
    obtain ⟨hdue, hframes⟩ := foldl_olderCutoff_none hfold
    rcases hq with hq | ⟨f, hf, rfl⟩ | hq
    · rw [List.head?_eq_none_iff.mp hdue] at hq
      cases hq
    · rw [hframes] at hf
      cases hf
    · rwa [dueBound, if_pos hhas] at hq

end TickReplay

/-! ## Overflows of the history -/

namespace JammaInputTimeline

variable (t : JammaInputTimeline)

@[simp]
theorem pruneHistory_overflow : t.pruneHistory.historyOverflowCount = t.historyOverflowCount := by
  unfold pruneHistory
  split
  · rfl
  · split <;> rfl

theorem makeRoom_overflow : t.historyOverflowCount ≤ t.makeRoom.historyOverflowCount := by
  unfold makeRoom
  split
  · split
    · exact Nat.le_succ _
    · exact le_refl _
  · exact le_refl _

variable {t} in
/-- Where no overflow is counted, there was room. -/
theorem makeRoom_eq_self (h : t.makeRoom.historyOverflowCount = t.historyOverflowCount) : t.makeRoom = t := by
  unfold makeRoom at h ⊢
  split at h
  · split at h
    · exact absurd h (Nat.succ_ne_self _)
    · next hfull => rw [if_neg hfull]
  · rfl

theorem recordState_overflow (timestamp : ℕ) (mask : BitVec 16) :
    t.historyOverflowCount ≤ (t.recordState timestamp mask).historyOverflowCount := by
  unfold recordState
  split
  · exact le_refl _
  · have := t.pruneHistory.makeRoom_overflow
    rwa [pruneHistory_overflow] at this

theorem step_overflow (event : TimelineEvent) :
    t.historyOverflowCount ≤ (t.step event).1.historyOverflowCount := by
  cases event with
  | recordKeyEdge timestamp key pressed =>
    rw [step]
    split
    · exact le_refl _
    · exact t.recordState_overflow _ _
  | recordAllReleased timestamp => exact t.recordState_overflow _ _
  | enqueueTimerTick due =>
    rw [step]
    split <;> simp
  | beginTimerInterrupt preEsp frameEsp eip =>
    simp only [step]
    split <;> simp
  | endTimerInterrupt frameEsp =>
    rw [step]
    split <;> simp
  | clearTimerTicks => simp [step]
  | tryReplayPressedMask esp =>
    simp only [step]
    split <;> simp [JammaInputTimeline.stateAt]

theorem run_overflow (events : List TimelineEvent) :
    t.historyOverflowCount ≤ (t.run events).1.historyOverflowCount := by
  induction events generalizing t with
  | nil => exact le_refl _
  | cons event events ih => exact (t.step_overflow event).trans (ih _)

end JammaInputTimeline

/-! ## Pruning is invisible -/

open TickReplay JammaInputTimeline

/-- The timeline answers like the one that never prunes, for every time that can still be asked for.
A timeline that starts at `start` covers the times from `b` on where `start ≤ b`. -/
structure Follows (start b : ℕ) (t : JammaInputTimeline) (u : UnprunedTimeline) : Prop where
  replay : t.replay = u.replay
  latest : t.latestPressedMask = u.latestPressedMask
  ordered : t.replay.Ordered
  prunes : Prunes HistoryEntry.timestampNanoseconds HistoryEntry.pressedMask (t.replay.Asked b)
    t.historyFloorPressedMask t.history u.initialPressedMask u.recorded
  covered : start ≤ b → ∀ q, t.replay.Asked b q → t.historyFloorTimestamp ≤ q
  noMiss : start ≤ b → t.historyCoverageMissCount = 0

namespace Follows

variable {start b : ℕ} {t : JammaInputTimeline} {u : UnprunedTimeline}

theorem reset (start b : ℕ) (mask : BitVec 16) :
    Follows start b (JammaInputTimeline.reset start mask) (UnprunedTimeline.reset mask) where
  replay := rfl
  latest := rfl
  ordered := ⟨List.Pairwise.nil, by simp [JammaInputTimeline.reset], by simp [JammaInputTimeline.reset]⟩
  prunes := .nil _ _
  covered := by
    rintro hstart q (hq | ⟨f, hf, -⟩ | hq)
    · cases hq
    · cases hf
    · exact hstart.trans hq
  noMiss := fun _ => rfl

/-- Ticks and frames move on without asking for a new time. -/
theorem narrow (h : Follows start b t u) {r : TickReplay} (hr : Narrows b u.replay r) :
    Follows start b { t with replay := r } { u with replay := r } := by
  rw [← h.replay] at hr
  exact ⟨rfl, h.latest, hr.ordered, h.prunes.mono hr.asked,
    fun hstart q hq => h.covered hstart q (hr.asked q hq), h.noMiss⟩

theorem lastValue_takeWhile {history : List HistoryEntry} {p : HistoryEntry → Bool} {floor : HistoryEntry}
    (h : (history.takeWhile p).getLast? = some floor) (mask : BitVec 16) :
    lastValue HistoryEntry.pressedMask mask (history.takeWhile p) = floor.pressedMask := by
  obtain ⟨rest, hrest⟩ := List.getLast?_eq_some_iff.mp h
  rw [hrest, lastValue_append_singleton]

theorem pruneHistory (h : Follows start b t u) : Follows start b t.pruneHistory u := by
  unfold JammaInputTimeline.pruneHistory
  split
  case h_1 => exact h
  case h_2 cutoff hcutoff =>
    split
    case h_1 => exact h
    case h_2 floor hfloor =>
      have hle := fun q hq => pruneCutoff_le (b := b) h.ordered hcutoff (q := q) hq
      have hprunes := h.prunes.prune hle
      rw [lastValue_takeWhile hfloor] at hprunes
      refine ⟨h.replay, h.latest, h.ordered, hprunes, fun _ q hq => ?_, h.noMiss⟩
      have hmem := List.mem_takeWhile_imp (List.mem_of_getLast? hfloor)
      exact (of_decide_eq_true hmem).trans (hle q hq)

/-- A new state goes into both, where there is room. -/
theorem recordState (h : Follows start b t u) (timestamp : ℕ) (mask : BitVec 16)
    (hfit : (t.recordState timestamp mask).historyOverflowCount = t.historyOverflowCount) :
    Follows start b (t.recordState timestamp mask) (u.recordState timestamp mask) := by
  unfold JammaInputTimeline.recordState UnprunedTimeline.recordState at *
  rw [h.latest] at *
  by_cases hsame : mask = u.latestPressedMask
  · rw [if_pos hsame, if_pos hsame]
    exact h
  · rw [if_neg hsame] at hfit
    rw [if_neg hsame, if_neg hsame]
    have hroom : t.pruneHistory.makeRoom = t.pruneHistory :=
      makeRoom_eq_self (hfit.trans t.pruneHistory_overflow.symm)
    simp only
    rw [hroom]
    have hpruned := h.pruneHistory
    refine ⟨hpruned.replay, rfl, hpruned.ordered, hpruned.prunes.append ⟨rfl, fun q hq => ?_⟩,
      hpruned.covered, hpruned.noMiss⟩
    rw [hpruned.replay, ← h.replay] at hq
    exact h.prunes.clamp_le_iff timestamp hq

/-- A frame is answered alike, and without a miss. -/
theorem stateAt (h : Follows start b t u) {q : ℕ} (hq : u.replay.Asked b q) :
    (t.stateAt q).2 = u.stateAt q ∧ Follows start b (t.stateAt q).1 u := by
  rw [← h.replay] at hq
  refine ⟨h.prunes.stateAt_eq hq, ⟨h.replay, h.latest, h.ordered, h.prunes, h.covered, fun hstart => ?_⟩⟩
  show t.historyCoverageMissCount + (if q < t.historyFloorTimestamp then 1 else 0) = 0
  rw [h.noMiss hstart, if_neg (not_lt.mpr (h.covered hstart q hq))]

/-- One operation on both timelines. -/
theorem step (h : Follows start b t u) (event : TimelineEvent)
    (hdue : ∀ d, event = .enqueueTimerTick d → u.replay.dueBound b ≤ d)
    (hfit : (t.step event).1.historyOverflowCount = t.historyOverflowCount) :
    (t.step event).2 = (u.step event).2 ∧ Follows start b (t.step event).1 (u.step event).1 := by
  have hordered := h.replay ▸ h.ordered
  cases event with
  | recordKeyEdge timestamp key pressed =>
    rw [JammaInputTimeline.step] at hfit ⊢
    rw [UnprunedTimeline.step]
    by_cases hkey : key = .count
    · rw [if_pos hkey, if_pos hkey]
      exact ⟨rfl, h⟩
    · rw [if_neg hkey] at hfit
      rw [if_neg hkey, if_neg hkey, ← h.latest]
      exact ⟨rfl, h.recordState _ _ hfit⟩
  | recordAllReleased timestamp => exact ⟨rfl, h.recordState _ _ hfit⟩
  | enqueueTimerTick due =>
    rw [JammaInputTimeline.step, UnprunedTimeline.step, h.replay]
    cases hr : u.replay.enqueueTimerTick due with
    | none => exact ⟨rfl, h⟩
    | some r =>
      have hnarrows := narrows_enqueueTimerTick hordered (hdue due rfl) hr
      exact ⟨rfl, (h.narrow hnarrows).pruneHistory⟩
  | beginTimerInterrupt preEsp frameEsp eip =>
    simp only [JammaInputTimeline.step, UnprunedTimeline.step]
    rw [h.replay]
    have hretire := narrows_retire (b := b) hordered preEsp
    cases hr : ((u.replay.retireReplayFrames preEsp).retireStaleReplayFrames).pushReplayFrame frameEsp eip with
    | none => exact ⟨rfl, h.narrow hretire⟩
    | some r =>
      have hpush := narrows_pushReplayFrame (b := b) hretire.ordered hr
      exact ⟨rfl, (h.narrow (hretire.trans hpush)).pruneHistory⟩
  | endTimerInterrupt frameEsp =>
    rw [JammaInputTimeline.step, UnprunedTimeline.step, h.replay]
    cases hr : u.replay.endTimerInterrupt frameEsp with
    | none => exact ⟨rfl, h⟩
    | some r => exact ⟨rfl, (h.narrow (narrows_endTimerInterrupt hordered hr)).pruneHistory⟩
  | clearTimerTicks =>
    rw [JammaInputTimeline.step, UnprunedTimeline.step, h.replay]
    exact ⟨rfl, (h.narrow (narrows_clearTimerTicks hordered)).pruneHistory⟩
  | tryReplayPressedMask esp =>
    simp only [JammaInputTimeline.step, UnprunedTimeline.step]
    rw [h.replay]
    have hpruned := (h.narrow (narrows_retire (b := b) hordered esp)).pruneHistory
    rw [hpruned.replay]
    cases hframe : ((u.replay.retireReplayFrames esp).retireStaleReplayFrames).replayFrames.getLast? with
    | none => exact ⟨rfl, hpruned⟩
    | some frame =>
      have hasked : ((u.replay.retireReplayFrames esp).retireStaleReplayFrames).Asked b
          frame.timestampNanoseconds := .inr (.inl ⟨frame, List.mem_of_getLast? hframe, rfl⟩)
      obtain ⟨hanswer, hfollows⟩ := hpruned.stateAt hasked
      exact ⟨congrArg some hanswer, hfollows⟩

end Follows

/-- The due times of the ticks, in order. -/
def dueTimes (events : List TimelineEvent) : List ℕ :=
  events.filterMap fun event =>
    match event with
    | .enqueueTimerTick due => some due
    | _ => none

/-- The last due time changes with a tick only. -/
theorem dueBound_step (b : ℕ) (u : UnprunedTimeline) (event : TimelineEvent) :
    (u.step event).1.replay.dueBound b = u.replay.dueBound b ∨
      ∃ d, event = .enqueueTimerTick d ∧ (u.step event).1.replay.dueBound b = d := by
  cases event with
  | recordKeyEdge timestamp key pressed =>
    left
    rw [UnprunedTimeline.step]
    split
    · rfl
    · rw [UnprunedTimeline.recordState]
      split <;> rfl
  | recordAllReleased timestamp =>
    left
    rw [UnprunedTimeline.step, UnprunedTimeline.recordState]
    split <;> rfl
  | enqueueTimerTick due =>
    rw [UnprunedTimeline.step, enqueueTimerTick]
    split
    · exact .inl rfl
    · exact .inr ⟨due, rfl, rfl⟩
  | beginTimerInterrupt preEsp frameEsp eip =>
    left
    simp only [UnprunedTimeline.step, pushReplayFrame]
    split <;> rfl
  | endTimerInterrupt frameEsp =>
    left
    rw [UnprunedTimeline.step, endTimerInterrupt]
    split <;> rfl
  | clearTimerTicks => exact .inl rfl
  | tryReplayPressedMask esp => exact .inl rfl

theorem Follows.run {start b : ℕ} {t : JammaInputTimeline} {u : UnprunedTimeline} (h : Follows start b t u)
    {events : List TimelineEvent} (hdues : (dueTimes events).Pairwise (· ≤ ·))
    (hbound : ∀ d ∈ dueTimes events, u.replay.dueBound b ≤ d)
    (hfit : (t.run events).1.historyOverflowCount = t.historyOverflowCount) :
    (t.run events).2 = (u.run events).2 ∧ Follows start b (t.run events).1 (u.run events).1 := by
  induction events generalizing t u with
  | nil => exact ⟨rfl, h⟩
  | cons event events ih =>
    rw [JammaInputTimeline.run] at hfit
    have hstepFit : (t.step event).1.historyOverflowCount = t.historyOverflowCount :=
      le_antisymm (((t.step event).1.run_overflow events).trans hfit.le) (t.step_overflow event)
    have hdue : ∀ d, event = .enqueueTimerTick d → u.replay.dueBound b ≤ d := by
      rintro d rfl
      exact hbound d (by simp [dueTimes])
    obtain ⟨hmask, hfollows⟩ := h.step event hdue hstepFit
    have hsub : ∀ d ∈ dueTimes events, d ∈ dueTimes (event :: events) := by
      intro d hd
      rw [dueTimes, List.filterMap_cons]
      split
      · exact hd
      · exact List.mem_cons_of_mem _ hd
    have hrest : (dueTimes events).Pairwise (· ≤ ·) := by
      refine hdues.sublist ?_
      rw [dueTimes, dueTimes, List.filterMap_cons]
      split
      · exact List.Sublist.refl _
      · exact List.sublist_cons_self ..
    have hnext : ∀ d ∈ dueTimes events, (u.step event).1.replay.dueBound b ≤ d := by
      intro d hd
      rcases dueBound_step b u event with hsame | ⟨d', rfl, hnew⟩
      · rw [hsame]
        exact hbound d (hsub d hd)
      · rw [hnew]
        exact (List.pairwise_cons.mp hdues).1 d hd
    obtain ⟨hmasks, hend⟩ := ih hfollows hrest hnext (hfit.trans hstepFit.symm)
    exact ⟨by rw [JammaInputTimeline.run, UnprunedTimeline.run, hmask, hmasks], hend⟩

/-- Pruning is invisible: as long as the history does not overflow, every read in a handler is
answered as by a timeline that never prunes, and no read asks for a time before the floor. -/
theorem replay_masks_eq_unpruned (start : ℕ) (mask : BitVec 16) {events : List TimelineEvent}
    (hdues : (dueTimes events).Pairwise (· ≤ ·))
    (hfit : ((reset start mask).run events).1.historyOverflowCount = 0) :
    ((reset start mask).run events).2 = ((UnprunedTimeline.reset mask).run events).2 ∧
    ((∀ d ∈ dueTimes events, start ≤ d) →
      ((reset start mask).run events).1.historyCoverageMissCount = 0) := by
  constructor
  · exact ((Follows.reset start 0 mask).run hdues (fun d _ => Nat.zero_le d) hfit).1
  · intro hstart
    exact ((Follows.reset start start mask).run hdues hstart hfit).2.noMiss (le_refl start)

/-- A key is pressed between two ticks and released after them; both handlers read. -/
def pressEvents : List TimelineEvent :=
  [.recordKeyEdge 200 .p1UpLeft true, .enqueueTimerTick 150, .enqueueTimerTick 250,
    .beginTimerInterrupt 1100 1000 0, .recordKeyEdge 400 .p1UpLeft false, .tryReplayPressedMask 900,
    .endTimerInterrupt 1000, .beginTimerInterrupt 1100 1000 0, .tryReplayPressedMask 900]

theorem replay_masks_press :
    ((reset 100 0).run pressEvents).2 = ((UnprunedTimeline.reset 0).run pressEvents).2 ∧
    ((reset 100 0).run pressEvents).1.historyCoverageMissCount = 0 ∧
    ((reset 100 0).run pressEvents).2.getLast? = some (some 1) :=
  have h := @replay_masks_eq_unpruned 100 0 pressEvents (by decide) (by decide)
  ⟨h.1, h.2 (by decide), by decide⟩

end Repiu.Engine
