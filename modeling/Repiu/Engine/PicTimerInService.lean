import Mathlib.Data.List.Sort
import Mathlib.Tactic.Common

/-!
# When a timer tick may be injected

The in-service bit of IRQ0, the record of the injected frames whose handlers
have not returned, and the hold that a guest `cli` sets up. Addresses and times
are naturals.
-/

namespace Repiu.Engine

def kHandlerFrameCapacity : ℕ := 4

def kGuestCliHoldLimitNanoseconds : ℕ := 100000000

structure PicTimerInService where
  active : Bool := false
  frameEsp : ℕ := 0
  lastDeliveryAtSti : Bool := false
  lastDeliveryReturned : Bool := true
  /-- The recorded frames, newest first. -/
  handlerFrames : List ℕ := []
  handlerReturnSeen : Bool := false
  cliHold : Bool := false
  cliHoldSinceNs : ℕ := 0
deriving DecidableEq

namespace PicTimerInService

def notePicTimerInjected (s : PicTimerInService) (frameEsp : ℕ) (atSti : Bool) : PicTimerInService :=
  { s with
    active := true
    frameEsp := frameEsp
    lastDeliveryAtSti := atSti
    lastDeliveryReturned := false
    handlerFrames :=
      if s.handlerFrames.length < kHandlerFrameCapacity then frameEsp :: s.handlerFrames
      -- a full record loses its newest frame
      else frameEsp :: s.handlerFrames.tail }

def endGuestCliHold (s : PicTimerInService) : PicTimerInService := { s with cliHold := false }

def noteGuestCli (s : PicTimerInService) (now : ℕ) : PicTimerInService :=
  if s.cliHold then s else { s with cliHold := true, cliHoldSinceNs := now }

def noteGuestSti (s : PicTimerInService) : PicTimerInService := s.endGuestCliHold

def noteGuestIret (s : PicTimerInService) (frameEsp : ℕ) : PicTimerInService :=
  let s' :=
    if s.handlerFrames.head? = some frameEsp then
      { s with handlerFrames := s.handlerFrames.tail, handlerReturnSeen := true }.endGuestCliHold
    else s
  if frameEsp = s'.frameEsp then { s' with lastDeliveryReturned := true } else s'

def guestCliBlocksInjection (s : PicTimerInService) (now : ℕ) : PicTimerInService × Bool :=
  if !s.cliHold then (s, false)
  else if now > s.cliHoldSinceNs ∧ now - s.cliHoldSinceNs > kGuestCliHoldLimitNanoseconds then
    (s.endGuestCliHold, false)
  else (s, true)

/-- A command that ends the service of IRQ0. -/
def endsIrq0 (command : ℕ) : Bool := command = 0x20 || command = 0x60

def notePicCommand (s : PicTimerInService) (command : ℕ) : PicTimerInService :=
  if endsIrq0 command then { s with active := false } else s

/-- The state once the frames that the stack stands above are taken as popped. -/
def dropPopped (s : PicTimerInService) (currentEsp : ℕ) : PicTimerInService :=
  { s with
    lastDeliveryReturned := s.lastDeliveryReturned || decide (currentEsp > s.frameEsp)
    handlerFrames := s.handlerFrames.dropWhile fun frame => decide (currentEsp > frame) }

def picTimerBlocksInjection (s : PicTimerInService) (currentEsp : ℕ) (atSti : Bool) : PicTimerInService × Bool :=
  let s := s.dropPopped currentEsp
  if s.handlerReturnSeen && (decide (s.handlerFrames.length ≥ 2) || (decide (s.handlerFrames.length = 1) && !atSti))
  then (s, true)
  else
    let s := if s.active && decide (currentEsp > s.frameEsp) then { s with active := false } else s
    if s.active then (s, true)
    else if atSti && s.lastDeliveryAtSti && !s.lastDeliveryReturned then (s, true)
    else (s, false)

end PicTimerInService

/-! ## Runs -/

/-- An injected frame that is still on the stack. -/
structure InjectedFrame where
  serial : ℕ
  frame : ℕ
  /-- Its end of interrupt was written. -/
  acknowledged : Bool := false
  /-- An injection took its place in the full record. -/
  overwritten : Bool := false
deriving DecidableEq

/-- The policy's state, the stack pointer and what the policy cannot see: the injected frames on the
stack, how many there have been, and when the current hold began. -/
structure TimerRun where
  pic : PicTimerInService := {}
  esp : ℕ
  live : List InjectedFrame := []
  injected : ℕ := 0
  firstCli : Option ℕ := none
deriving DecidableEq

inductive TimerEvent where
  /-- The guest moves its stack pointer. -/
  | move (esp : ℕ)
  /-- An attempt to inject; the caller may still decide against it. -/
  | attempt (atSti inject : Bool)
  | command (value : ℕ)
  /-- A return that pops the frame at `frame` and leaves the stack pointer above it. -/
  | iret (frame esp : ℕ)
  | cli (now : ℕ)
  | sti
  /-- The hold is asked whether it blocks an injection. -/
  | cliCheck (now : ℕ)
deriving DecidableEq

namespace TimerRun

/-- The stack pointer moves; frames below it are gone. -/
def moveTo (r : TimerRun) (esp : ℕ) : TimerRun :=
  { r with esp := esp, live := r.live.filter fun i => decide (esp ≤ i.frame) }

/-- The tick goes in, twelve bytes below the stack pointer. -/
def inject (r : TimerRun) (pic : PicTimerInService) (atSti : Bool) : TimerRun :=
  let full := decide (¬pic.handlerFrames.length < kHandlerFrameCapacity)
  let live := r.live.map fun i =>
    { i with overwritten := i.overwritten || (full && decide (pic.handlerFrames.head? = some i.frame)) }
  { r with
    pic := pic.notePicTimerInjected (r.esp - 12) atSti
    esp := r.esp - 12
    live := ⟨r.injected, r.esp - 12, false, false⟩ :: live
    injected := r.injected + 1 }

/-- One event, where it can happen. -/
def step (r : TimerRun) : TimerEvent → Option TimerRun
  | .move esp => some (r.moveTo esp)
  | .attempt atSti inject =>
    let asked := r.pic.picTimerBlocksInjection r.esp atSti
    if asked.2 = false ∧ inject = true then
      if 12 ≤ r.esp then some (r.inject asked.1 atSti) else none
    else some { r with pic := asked.1 }
  | .command value =>
    some { r with
      pic := r.pic.notePicCommand value
      live :=
        if PicTimerInService.endsIrq0 value then
          r.live.map fun i => { i with acknowledged := i.acknowledged || decide (i.serial + 1 = r.injected) }
        else r.live }
  | .iret frame esp =>
    if frame < esp then
      some { r.moveTo esp with
        pic := r.pic.noteGuestIret frame
        firstCli := if r.pic.handlerFrames.head? = some frame then none else r.firstCli }
    else none
  | .cli now => some { r with pic := r.pic.noteGuestCli now, firstCli := some (r.firstCli.getD now) }
  | .sti => some { r with pic := r.pic.noteGuestSti, firstCli := none }
  | .cliCheck now =>
    some { r with
      pic := (r.pic.guestCliBlocksInjection now).1
      firstCli := if (r.pic.guestCliBlocksInjection now).2 then r.firstCli else none }

/-- Events in a row. -/
def steps (r : TimerRun) : List TimerEvent → Option TimerRun
  | [] => some r
  | e :: rest => (r.step e).bind fun r => r.steps rest

/-- The states of the runs from a fresh policy. -/
def Reachable (r : TimerRun) : Prop := ∃ (esp : ℕ) (events : List TimerEvent), steps { esp := esp } events = some r

end TimerRun

/-! ## One attempt -/

theorem mem_dropWhile_of_not {α : Type} {p : α → Bool} {l : List α} {a : α} (h : a ∈ l) (hp : p a = false) :
    a ∈ l.dropWhile p := by
  induction l with
  | nil => exact h
  | cons b l ih =>
    rw [List.dropWhile_cons]
    split
    case isTrue hb =>
      rcases List.mem_cons.mp h with rfl | h
      · rw [hp] at hb
        cases hb
      · exact ih h
    case isFalse hb => exact h

/-- In an increasing list the elements below a bound stand in front. -/
theorem dropWhile_eq_filter {l : List ℕ} (h : l.Pairwise (· < ·)) (esp : ℕ) :
    (l.dropWhile fun frame => decide (esp > frame)) = l.filter fun frame => decide (esp ≤ frame) := by
  induction l with
  | nil => rfl
  | cons a l ih =>
    obtain ⟨hfirst, hrest⟩ := List.pairwise_cons.mp h
    by_cases ha : esp ≤ a
    · have hall : ∀ b ∈ a :: l, decide (esp ≤ b) = true := by
        intro b hb
        rw [decide_eq_true_eq]
        rcases List.mem_cons.mp hb with rfl | hb
        · exact ha
        · exact ha.trans (hfirst b hb).le
      rw [List.dropWhile_cons_of_neg (by simpa using ha), List.filter_eq_self.mpr hall]
    · rw [List.dropWhile_cons_of_pos (by simpa using ha), List.filter_cons_of_neg (by simpa using ha), ih hrest]

namespace PicTimerInService

variable {s : PicTimerInService} {esp : ℕ} {atSti : Bool}

/-- What an attempt changes, and when it is allowed. -/
theorem picTimerBlocksInjection_spec (s : PicTimerInService) (esp : ℕ) (atSti : Bool) :
    (s.picTimerBlocksInjection esp atSti).1.handlerFrames =
      s.handlerFrames.dropWhile (fun frame => decide (esp > frame)) ∧
    (s.picTimerBlocksInjection esp atSti).1.frameEsp = s.frameEsp ∧
    (s.picTimerBlocksInjection esp atSti).1.cliHold = s.cliHold ∧
    (s.picTimerBlocksInjection esp atSti).1.cliHoldSinceNs = s.cliHoldSinceNs ∧
    ((s.picTimerBlocksInjection esp atSti).1.active = s.active ∨ esp > s.frameEsp) ∧
    ((s.picTimerBlocksInjection esp atSti).2 = false →
      (s.picTimerBlocksInjection esp atSti).1.active = false ∧
      (s.handlerReturnSeen = true →
        (s.handlerFrames.dropWhile fun frame => decide (esp > frame)).length = 0 ∨
        atSti = true ∧ (s.handlerFrames.dropWhile fun frame => decide (esp > frame)).length ≤ 1)) := by
  unfold picTimerBlocksInjection
  simp only
  by_cases hnested : ((s.dropPopped esp).handlerReturnSeen && (decide ((s.dropPopped esp).handlerFrames.length ≥ 2) ||
      (decide ((s.dropPopped esp).handlerFrames.length = 1) && !atSti))) = true
  · rw [if_pos hnested]
    exact ⟨rfl, rfl, rfl, rfl, .inl rfl, nofun⟩
  rw [if_neg hnested]
  have hfew : s.handlerReturnSeen = true →
      (s.handlerFrames.dropWhile fun frame => decide (esp > frame)).length = 0 ∨
      atSti = true ∧ (s.handlerFrames.dropWhile fun frame => decide (esp > frame)).length ≤ 1 := by
    intro hseen
    have hseen' : (s.dropPopped esp).handlerReturnSeen = true := hseen
    rw [hseen'] at hnested
    change ¬(true && (decide ((s.handlerFrames.dropWhile fun frame => decide (esp > frame)).length ≥ 2) ||
      (decide ((s.handlerFrames.dropWhile fun frame => decide (esp > frame)).length = 1) && !atSti))) = true at hnested
    generalize (s.handlerFrames.dropWhile fun frame => decide (esp > frame)).length = depth at hnested ⊢
    cases atSti <;> simp at hnested ⊢ <;> omega
  by_cases hretired : ((s.dropPopped esp).active && decide (esp > (s.dropPopped esp).frameEsp)) = true
  · rw [if_pos hretired]
    have hesp : esp > s.frameEsp := by
      rw [Bool.and_eq_true, decide_eq_true_eq] at hretired
      exact hretired.2
    rw [if_neg (by exact Bool.false_ne_true)]
    split
    · exact ⟨rfl, rfl, rfl, rfl, .inr hesp, nofun⟩
    · exact ⟨rfl, rfl, rfl, rfl, .inr hesp, fun _ => ⟨rfl, hfew⟩⟩
  · rw [if_neg hretired]
    cases hactive : (s.dropPopped esp).active with
    | true =>
      rw [if_pos rfl]
      exact ⟨rfl, rfl, rfl, rfl, .inl rfl, nofun⟩
    | false =>
      rw [if_neg (by decide)]
      split
      · exact ⟨rfl, rfl, rfl, rfl, .inl rfl, nofun⟩
      · exact ⟨rfl, rfl, rfl, rfl, .inl rfl, fun _ => ⟨hactive, hfew⟩⟩

end PicTimerInService

/-! ## The invariant of a run -/

namespace TimerRun

open PicTimerInService

/-- What ties the policy's state to the stack. -/
structure Consistent (r : TimerRun) : Prop where
  above : ∀ i ∈ r.live, r.esp ≤ i.frame
  /-- Only the newest frame can lack its end of interrupt, and then it is in service. -/
  pending : ∀ i ∈ r.live, i.acknowledged = false →
    r.pic.active = true ∧ i.frame = r.pic.frameEsp ∧ i.serial + 1 = r.injected
  sorted : r.pic.handlerFrames.Pairwise (· < ·)
  recorded : ∀ i ∈ r.live, i.overwritten = true ∨ i.frame ∈ r.pic.handlerFrames
  hold : r.firstCli = if r.pic.cliHold then some r.pic.cliHoldSinceNs else none

namespace Consistent

variable {r : TimerRun}

theorem init (esp : ℕ) : Consistent { esp := esp } :=
  ⟨nofun, nofun, List.Pairwise.nil, nofun, rfl⟩

theorem moveTo (h : Consistent r) (esp : ℕ) : Consistent (r.moveTo esp) where
  above := fun i hi => by
    have := (List.mem_filter.mp hi).2
    rwa [decide_eq_true_eq] at this
  pending := fun i hi => h.pending i (List.mem_filter.mp hi).1
  sorted := h.sorted
  recorded := fun i hi => h.recorded i (List.mem_filter.mp hi).1
  hold := h.hold

/-- An allowed attempt finds every frame on the stack acknowledged. -/
theorem allowed (h : Consistent r) {atSti : Bool} (hallowed : (r.pic.picTimerBlocksInjection r.esp atSti).2 = false)
    {i : InjectedFrame} (hi : i ∈ r.live) : i.acknowledged = true := by
  obtain ⟨-, -, -, -, hactive, hspec⟩ := picTimerBlocksInjection_spec r.pic r.esp atSti
  by_contra hnot
  rw [Bool.not_eq_true] at hnot
  obtain ⟨hservice, hframe, -⟩ := h.pending i hi hnot
  rcases hactive with hsame | hpopped
  · rw [(hspec hallowed).1, hservice] at hsame
    cases hsame
  · have := h.above i hi
    omega

theorem asked (h : Consistent r) (atSti : Bool) :
    Consistent { r with pic := (r.pic.picTimerBlocksInjection r.esp atSti).1 } := by
  obtain ⟨hframes, hframe, hhold, hsince, hactive, -⟩ := picTimerBlocksInjection_spec r.pic r.esp atSti
  refine ⟨h.above, ?_, ?_, ?_, ?_⟩
  · intro i hi hnot
    obtain ⟨hservice, hlast, hserial⟩ := h.pending i hi hnot
    dsimp only
    refine ⟨?_, hframe ▸ hlast, hserial⟩
    rcases hactive with hsame | hpopped
    · rw [hsame, hservice]
    · have := h.above i hi
      omega
  · dsimp only
    rw [hframes]
    exact h.sorted.sublist (List.dropWhile_sublist _)
  · intro i hi
    dsimp only
    rw [hframes]
    rcases h.recorded i hi with hover | hrecorded
    · exact .inl hover
    · refine .inr (mem_dropWhile_of_not hrecorded ?_)
      have := h.above i hi
      exact decide_eq_false (by omega)
  · dsimp only
    rw [hhold, hsince]
    exact h.hold

theorem inject (h : Consistent r) {atSti : Bool} (hallowed : (r.pic.picTimerBlocksInjection r.esp atSti).2 = false)
    (hroom : 12 ≤ r.esp) : Consistent (r.inject (r.pic.picTimerBlocksInjection r.esp atSti).1 atSti) := by
  have hasked := h.asked atSti
  have hframes := (picTimerBlocksInjection_spec r.pic r.esp atSti).1
  -- the frames that are left lie at or above the stack pointer
  have habove : ∀ f ∈ (r.pic.picTimerBlocksInjection r.esp atSti).1.handlerFrames, r.esp - 12 < f := by
    intro f hf
    rw [hframes, dropWhile_eq_filter h.sorted, List.mem_filter, decide_eq_true_eq] at hf
    omega
  have hsorted := hasked.sorted
  have hrecorded := hasked.recorded
  have hhold := hasked.hold
  dsimp only at hsorted hrecorded hhold
  generalize (r.pic.picTimerBlocksInjection r.esp atSti).1 = pic at habove hsorted hrecorded hhold
  refine ⟨?_, ?_, ?_, ?_, hhold⟩
  · intro i hi
    rcases List.mem_cons.mp hi with rfl | hi
    · exact le_rfl
    · obtain ⟨j, hj, rfl⟩ := List.mem_map.mp hi
      exact (Nat.sub_le _ _).trans (h.above j hj)
  · intro i hi hnot
    rcases List.mem_cons.mp hi with rfl | hi
    · exact ⟨rfl, rfl, rfl⟩
    · obtain ⟨j, hj, rfl⟩ := List.mem_map.mp hi
      exact absurd (h.allowed hallowed hj) (by simpa using hnot)
  · show (if _ then _ else _ : List ℕ).Pairwise _
    split
    · exact List.pairwise_cons.mpr ⟨habove, hsorted⟩
    · exact List.pairwise_cons.mpr
        ⟨fun f hf => habove f (List.mem_of_mem_tail hf), hsorted.sublist (List.tail_sublist _)⟩
  · intro i hi
    rcases List.mem_cons.mp hi with rfl | hi
    · right
      show _ ∈ (if _ then _ else _ : List ℕ)
      split <;> exact List.mem_cons_self
    · obtain ⟨j, hj, rfl⟩ := List.mem_map.mp hi
      show (j.overwritten || _) = true ∨ j.frame ∈ (if _ then _ else _ : List ℕ)
      rcases hrecorded j hj with hover | hmem
      · left
        rw [hover, Bool.true_or]
      · by_cases hfull : pic.handlerFrames.length < kHandlerFrameCapacity
        · rw [if_pos hfull]
          exact .inr (List.mem_cons_of_mem _ hmem)
        · rw [if_neg hfull]
          match hlist : pic.handlerFrames with
          | [] =>
            rw [hlist] at hmem
            cases hmem
          | f :: rest =>
            rw [hlist] at hmem hfull
            rcases List.mem_cons.mp hmem with heq | hmem
            · left
              rw [Bool.or_eq_true, Bool.and_eq_true, decide_eq_true_eq, decide_eq_true_eq, heq]
              exact .inr ⟨hfull, rfl⟩
            · exact .inr (List.mem_cons_of_mem _ hmem)

theorem command (h : Consistent r) (value : ℕ) {r' : TimerRun} (hr : r.step (.command value) = some r') :
    Consistent r' := by
  cases hr
  by_cases heoi : endsIrq0 value = true
  · simp only [notePicCommand, heoi, if_true]
    refine ⟨?_, ?_, h.sorted, ?_, h.hold⟩
    · intro i hi
      obtain ⟨j, hj, rfl⟩ := List.mem_map.mp hi
      exact h.above j hj
    · intro i hi hnot
      obtain ⟨j, hj, rfl⟩ := List.mem_map.mp hi
      rw [Bool.or_eq_false_iff, decide_eq_false_iff_not] at hnot
      exact absurd (h.pending j hj hnot.1).2.2 hnot.2
    · intro i hi
      obtain ⟨j, hj, rfl⟩ := List.mem_map.mp hi
      exact h.recorded j hj
  · rw [Bool.not_eq_true] at heoi
    simp only [notePicCommand, heoi]
    exact h

theorem iret (h : Consistent r) {frame esp : ℕ} (hpopped : frame < esp) :
    Consistent { r.moveTo esp with
      pic := r.pic.noteGuestIret frame
      firstCli := if r.pic.handlerFrames.head? = some frame then none else r.firstCli } := by
  have hmoved := h.moveTo esp
  unfold noteGuestIret
  by_cases htop : r.pic.handlerFrames.head? = some frame
  · simp only [htop, if_true]
    have hframes : (if frame = (PicTimerInService.endGuestCliHold { r.pic with
        handlerFrames := r.pic.handlerFrames.tail, handlerReturnSeen := true }).frameEsp then
        { PicTimerInService.endGuestCliHold { r.pic with
            handlerFrames := r.pic.handlerFrames.tail, handlerReturnSeen := true } with lastDeliveryReturned := true }
        else PicTimerInService.endGuestCliHold { r.pic with
          handlerFrames := r.pic.handlerFrames.tail, handlerReturnSeen := true }).handlerFrames =
        r.pic.handlerFrames.tail := by
      split <;> rfl
    refine ⟨hmoved.above, ?_, ?_, ?_, ?_⟩
    · intro i hi hnot
      obtain ⟨hservice, hlast, hserial⟩ := hmoved.pending i hi hnot
      dsimp only
      split <;> exact ⟨hservice, hlast, hserial⟩
    · dsimp only
      rw [hframes]
      exact h.sorted.sublist (List.tail_sublist _)
    · intro i hi
      dsimp only
      rw [hframes]
      rcases hmoved.recorded i hi with hover | hmem
      · exact .inl hover
      · -- the frame that returned lies below the new stack pointer
        have habove := hmoved.above i hi
        change esp ≤ i.frame at habove
        change i.frame ∈ r.pic.handlerFrames at hmem
        match hlist : r.pic.handlerFrames with
        | [] =>
          rw [hlist] at htop
          cases htop
        | f :: rest =>
          rw [hlist] at htop hmem
          cases htop
          rcases List.mem_cons.mp hmem with heq | hmem
          · omega
          · exact .inr hmem
    · dsimp only
      split <;> rfl
  · simp only [htop, if_false]
    refine ⟨hmoved.above, ?_, ?_, ?_, ?_⟩
    · intro i hi hnot
      obtain ⟨hservice, hlast, hserial⟩ := hmoved.pending i hi hnot
      dsimp only
      split <;> exact ⟨hservice, hlast, hserial⟩
    · dsimp only
      split <;> exact h.sorted
    · intro i hi
      dsimp only
      split <;> exact hmoved.recorded i hi
    · dsimp only
      split <;> exact h.hold

theorem cli (h : Consistent r) (now : ℕ) :
    Consistent { r with pic := r.pic.noteGuestCli now, firstCli := some (r.firstCli.getD now) } := by
  have hhold := h.hold
  unfold noteGuestCli
  cases hheld : r.pic.cliHold with
  | true =>
    rw [hheld, if_pos rfl] at hhold
    refine ⟨h.above, h.pending, h.sorted, h.recorded, ?_⟩
    simp [hhold, hheld]
  | false =>
    rw [hheld, if_neg (by decide)] at hhold
    refine ⟨h.above, h.pending, h.sorted, h.recorded, ?_⟩
    simp [hhold]

theorem cliCheck (h : Consistent r) (now : ℕ) :
    Consistent { r with
      pic := (r.pic.guestCliBlocksInjection now).1
      firstCli := if (r.pic.guestCliBlocksInjection now).2 then r.firstCli else none } := by
  have hhold := h.hold
  unfold guestCliBlocksInjection
  cases hheld : r.pic.cliHold with
  | false =>
    refine ⟨h.above, h.pending, h.sorted, h.recorded, ?_⟩
    simp [hheld]
  | true =>
    simp only [Bool.not_true, Bool.false_eq_true, if_false]
    split
    · exact ⟨h.above, h.pending, h.sorted, h.recorded, rfl⟩
    · exact ⟨h.above, h.pending, h.sorted, h.recorded, hhold⟩

/-- Every event keeps the invariant. -/
theorem step (h : Consistent r) {e : TimerEvent} {r' : TimerRun} (hr : r.step e = some r') : Consistent r' := by
  cases e with
  | move esp =>
    cases hr
    exact h.moveTo esp
  | attempt atSti inject =>
    simp only [TimerRun.step] at hr
    split at hr
    case isTrue hgo =>
      split at hr
      case isTrue hroom =>
        cases hr
        exact h.inject hgo.1 hroom
      case isFalse => cases hr
    case isFalse =>
      cases hr
      exact h.asked atSti
  | command value => exact h.command value hr
  | iret frame esp =>
    simp only [TimerRun.step] at hr
    split at hr
    case isTrue hpopped =>
      cases hr
      exact h.iret hpopped
    case isFalse => cases hr
  | cli now =>
    cases hr
    exact h.cli now
  | sti =>
    cases hr
    exact ⟨h.above, h.pending, h.sorted, h.recorded, rfl⟩
  | cliCheck now =>
    cases hr
    exact h.cliCheck now

theorem steps (h : Consistent r) {events : List TimerEvent} {r' : TimerRun} (hr : r.steps events = some r') :
    Consistent r' := by
  induction events generalizing r with
  | nil =>
    cases hr
    exact h
  | cons e events ih =>
    rw [TimerRun.steps, Option.bind_eq_some_iff] at hr
    obtain ⟨r₁, hfirst, hrest⟩ := hr
    exact ih (h.step hfirst) hrest

end Consistent

theorem Reachable.consistent {r : TimerRun} (h : Reachable r) : Consistent r := by
  obtain ⟨esp, events, hr⟩ := h
  exact (Consistent.init esp).steps hr

/-- An injection goes in only where every injected frame on the stack got its end of interrupt; the
recorded frames decrease and include every injected frame on the stack whose entry no injection into
a full record took; once a return was seen, a tick goes in with no recorded frame on the stack, or
with one at a `sti`; and a hold blocks for the limit after its first `cli` at most. -/
theorem timer_injection_safe (r : TimerRun) (h : Reachable r) :
    (∀ atSti, (r.pic.picTimerBlocksInjection r.esp atSti).2 = false → ∀ i ∈ r.live, i.acknowledged = true) ∧
    r.pic.handlerFrames.Pairwise (· < ·) ∧
    (∀ i ∈ r.live, i.overwritten = true ∨ i.frame ∈ r.pic.handlerFrames) ∧
    (∀ atSti, (r.pic.picTimerBlocksInjection r.esp atSti).2 = false → r.pic.handlerReturnSeen = true →
      (r.pic.handlerFrames.filter fun frame => decide (r.esp ≤ frame)).length = 0 ∨
      atSti = true ∧ (r.pic.handlerFrames.filter fun frame => decide (r.esp ≤ frame)).length ≤ 1) ∧
    ∀ now, (r.pic.guestCliBlocksInjection now).2 = true →
      ∃ first, r.firstCli = some first ∧ now ≤ first + kGuestCliHoldLimitNanoseconds := by
  have hr := h.consistent
  refine ⟨fun atSti hallowed i hi => hr.allowed hallowed hi, hr.sorted, hr.recorded, ?_, ?_⟩
  · intro atSti hallowed hseen
    obtain ⟨-, -, -, -, -, hspec⟩ := picTimerBlocksInjection_spec r.pic r.esp atSti
    rw [← dropWhile_eq_filter hr.sorted]
    exact (hspec hallowed).2 hseen
  · intro now hblocks
    unfold guestCliBlocksInjection at hblocks
    have hhold := hr.hold
    cases hheld : r.pic.cliHold with
    | false =>
      rw [hheld] at hblocks
      cases hblocks
    | true =>
      rw [hheld] at hblocks hhold
      refine ⟨r.pic.cliHoldSinceNs, hhold, ?_⟩
      simp only [Bool.not_true, Bool.false_eq_true, if_false] at hblocks
      split at hblocks
      · cases hblocks
      · omega

/-- A tick goes in, its handler acknowledges it, and a second tick goes in below it. -/
def sampleEvents : List TimerEvent := [.attempt false true, .command 0x20, .move 900, .attempt false true]

theorem timer_injection_safe_sample :
    ∃ r, steps { esp := 1012 } sampleEvents = some r ∧ r.live.length = 2 ∧
      r.pic.handlerFrames.Pairwise (· < ·) :=
  ⟨_, rfl, rfl, (timer_injection_safe _ ⟨1012, sampleEvents, rfl⟩).2.1⟩

/-- Four frames are popped unseen while the stack goes deeper again and keep their entries; the next
two ticks share the last entry, and the return of the newer one leaves the older one on the stack
without an entry, with one frame on the stack and three recorded. -/
def staleEvents : List TimerEvent :=
  [.attempt false true, .command 0x20, .move 5000, .move 900,
   .attempt false true, .command 0x20, .move 5000, .move 800,
   .attempt false true, .command 0x20, .move 5000, .move 700,
   .attempt false true, .command 0x20, .move 5000, .move 600,
   .attempt false true, .command 0x20,
   .attempt false true, .command 0x20, .iret 576 588]

theorem timer_frames_not_all_recorded :
    ∃ r, Reachable r ∧ r.live.length < kHandlerFrameCapacity ∧
      r.pic.handlerFrames.length < kHandlerFrameCapacity ∧ ∃ i ∈ r.live, i.frame ∉ r.pic.handlerFrames :=
  ⟨_, ⟨1012, staleEvents, rfl⟩, by decide, by decide, ⟨4, 588, true, true⟩, by decide, by decide⟩

end TimerRun

end Repiu.Engine
