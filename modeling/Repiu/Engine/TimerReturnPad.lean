import Repiu.ByteMemory
import Repiu.StepRuns

/-!
# The timer return pad

The records of the timer frames that have been injected (`timer_return_pad.cpp`): a stack in an array,
which gives up records of its middle when it is full and of its top when an outer handler returns.
-/

namespace Repiu.Engine

open StepRuns

structure TimerReturnRecord where
  returnEip : Word
  frameEsp : Word
  singleStepTrace : Bool
  legacyFallback : Bool
  reentryPending : Bool
deriving DecidableEq

/-- `TimerReturnPad::kCapacity`. -/
def kTimerReturnCapacity : ℕ := 8

/-- `kInterruptFrameBytes`. -/
def kInterruptFrameBytes : Word := 12

structure TimerReturnPad where
  records : ℕ → TimerReturnRecord
  depth : ℕ
  depthMax : ℕ
  pushedTotal : Word
  returnedTotal : Word
  supervisedTotal : Word
  overflowTotal : Word
  unmatchedTotal : Word
  abandonedTotal : Word

namespace TimerReturnPad

/-- A pad without records. -/
def empty : TimerReturnPad where
  records := fun _ => ⟨0, 0, false, false, false⟩
  depth := 0
  depthMax := 0
  pushedTotal := 0
  returnedTotal := 0
  supervisedTotal := 0
  overflowTotal := 0
  unmatchedTotal := 0
  abandonedTotal := 0

variable (pad : TimerReturnPad)

/-! ## Calls -/

/-- `RemoveRecord`: the later records move down one slot. -/
def removeRecord (index : ℕ) : TimerReturnPad :=
  { pad with
    records := fun slot => if index ≤ slot ∧ slot + 1 < pad.depth then pad.records (slot + 1) else pad.records slot
    depth := pad.depth - 1 }

/-- The loop of `PushTimerReturn`. A round takes the index one up or the depth one down. -/
def dropAbandoned (currentEsp : Word) : ℕ → ℕ → TimerReturnPad → TimerReturnPad
  | 0, _, pad => pad
  | rounds + 1, index, pad =>
    if pad.depth ≤ index then pad
    else if (pad.records index).frameEsp < currentEsp then
      dropAbandoned currentEsp rounds index
        { pad.removeRecord index with abandonedTotal := pad.abandonedTotal + 1 }
    else dropAbandoned currentEsp rounds (index + 1) pad

/-- `PushTimerReturn` -/
def push (record : TimerReturnRecord) (currentEsp : Word) : Bool × TimerReturnPad :=
  let pad := if kTimerReturnCapacity ≤ pad.depth then dropAbandoned currentEsp pad.depth 0 pad else pad
  if kTimerReturnCapacity ≤ pad.depth then (false, { pad with overflowTotal := pad.overflowTotal + 1 })
  else
    (true, { pad with
      records := fun slot => if slot = pad.depth then record else pad.records slot
      depth := pad.depth + 1
      pushedTotal := pad.pushedTotal + 1
      depthMax := max pad.depthMax (pad.depth + 1) })

/-- The newest of the records below `index` that ends at the given ESP. -/
def findFrame (espAfterReturn : Word) : ℕ → Option ℕ
  | 0 => none
  | index + 1 =>
    if (pad.records index).frameEsp + kInterruptFrameBytes = espAfterReturn then some index
    else findFrame espAfterReturn index

/-- `PopTimerReturn`: the record, or nothing where there is none. -/
def pop (espAfterReturn : Word) : Option TimerReturnRecord × TimerReturnPad :=
  if pad.depth = 0 then (none, pad)
  else
    let found := (pad.findFrame espAfterReturn pad.depth).getD (pad.depth - 1)
    let unmatched := if (pad.findFrame espAfterReturn pad.depth).isNone then 1 else 0
    (some (pad.records found), { pad with
      unmatchedTotal := pad.unmatchedTotal + unmatched
      abandonedTotal := pad.abandonedTotal + BitVec.ofNat 32 (pad.depth - 1 - found)
      depth := found
      returnedTotal := pad.returnedTotal + 1 })

/-! ## The records -/

/-- The records that are kept, oldest first. -/
def live : List TimerReturnRecord := (List.range pad.depth).map pad.records

/-- A record belongs to the frame that ended at an ESP. -/
def EndsAt (espAfterReturn : Word) (record : TimerReturnRecord) : Prop :=
  record.frameEsp + kInterruptFrameBytes = espAfterReturn

variable {pad} {record : TimerReturnRecord} {esp : Word} {index rounds : ℕ}

@[simp] theorem length_live : pad.live.length = pad.depth := by simp [live]

theorem live_removeRecord (hindex : index < pad.depth) : (pad.removeRecord index).live = pad.live.eraseIdx index := by
  apply List.ext_getElem
  · rw [length_live, List.length_eraseIdx, length_live, if_pos hindex]
    rfl
  · intro slot hslot _
    have hdepth : slot < pad.depth - 1 := by simpa [removeRecord] using hslot
    rw [List.getElem_eraseIdx]
    by_cases hbelow : slot < index
    · simp [live, removeRecord, hbelow, Nat.not_le.mpr hbelow]
    · have hmoved : index ≤ slot ∧ slot + 1 < pad.depth := ⟨Nat.le_of_not_lt hbelow, by omega⟩
      simp [live, removeRecord, hbelow, hmoved]

/-! ## Balance -/

/-- Every record that was pushed has been returned, has been abandoned or is kept. -/
structure Balanced (pad : TimerReturnPad) : Prop where
  total : pad.pushedTotal = pad.returnedTotal + pad.abandonedTotal + BitVec.ofNat 32 pad.depth
  bound : pad.depth ≤ kTimerReturnCapacity

theorem balanced_empty : empty.Balanced := ⟨rfl, Nat.zero_le _⟩

theorem Balanced.abandon (h : pad.Balanced) (hindex : index < pad.depth) :
    Balanced { pad.removeRecord index with abandonedTotal := pad.abandonedTotal + 1 } where
  total := by
    have hdepth : BitVec.ofNat 32 pad.depth = BitVec.ofNat 32 (pad.depth - 1) + 1 := by
      rw [show pad.depth = pad.depth - 1 + 1 by omega, BitVec.ofNat_add]
      rfl
    have htotal := h.total
    rw [hdepth] at htotal
    simp only [removeRecord]
    rw [htotal]
    ring
  bound := by
    have := h.bound
    simp only [removeRecord]
    omega

/-! ## Abandoned records -/

/-- What the loop leaves: the records below `index`, and of the others those whose frame is not below
the stack. -/
theorem dropAbandoned_spec (h : pad.Balanced) (hrounds : pad.depth ≤ index + rounds) (hindex : index ≤ pad.depth) :
    (dropAbandoned esp rounds index pad).Balanced ∧
      (dropAbandoned esp rounds index pad).live =
        pad.live.take index ++ (pad.live.drop index).filter fun record => ¬record.frameEsp < esp := by
  induction rounds generalizing index pad with
  | zero =>
    have hdrop : pad.live.drop index = [] := List.drop_eq_nil_of_le (by rw [length_live]; omega)
    refine ⟨h, ?_⟩
    rw [dropAbandoned, hdrop, List.filter_nil, List.append_nil, List.take_of_length_le (by rw [length_live]; omega)]
  | succ rounds ih =>
    rw [dropAbandoned]
    by_cases hend : pad.depth ≤ index
    · have hdrop : pad.live.drop index = [] := List.drop_eq_nil_of_le (by rw [length_live]; omega)
      rw [if_pos hend, hdrop, List.filter_nil, List.append_nil, List.take_of_length_le (by rw [length_live]; omega)]
      exact ⟨h, rfl⟩
    have hinside : index < pad.live.length := by rw [length_live]; omega
    have hget : pad.live[index] = pad.records index := by simp [live]
    have hcons := List.drop_eq_getElem_cons hinside
    rw [if_neg hend]
    by_cases hbelow : (pad.records index).frameEsp < esp
    · rw [if_pos hbelow]
      have hinside' : index < pad.depth := by omega
      have hrounds' : pad.depth - 1 ≤ index + rounds := by omega
      have hindex' : index ≤ pad.depth - 1 := by omega
      obtain ⟨hbalanced, hlive⟩ := ih (h.abandon hinside') hrounds' hindex'
      refine ⟨hbalanced, ?_⟩
      rw [hlive, show live { pad.removeRecord index with abandonedTotal := pad.abandonedTotal + 1 } =
        pad.live.eraseIdx index from live_removeRecord (by omega), List.eraseIdx_eq_take_drop_succ,
        List.take_append_of_le_length (by simp; omega), List.take_take, min_self,
        List.drop_append_of_le_length (by simp; omega), hcons, hget, List.filter_cons_of_neg (by simpa using hbelow),
        List.drop_take, Nat.sub_self, List.take_zero, List.nil_append]
    · have hrounds' : pad.depth ≤ index + 1 + rounds := by omega
      have hindex' : index + 1 ≤ pad.depth := by omega
      rw [if_neg hbelow]
      obtain ⟨hbalanced, hlive⟩ := ih h hrounds' hindex'
      refine ⟨hbalanced, ?_⟩
      rw [hlive, hcons, hget, List.filter_cons_of_pos (by simpa using hbelow), ← hget,
        List.take_succ_eq_append_getElem hinside, List.append_assoc]
      rfl

/-! ## Pushes -/

/-- The records that a push does not drop. -/
def kept (pad : TimerReturnPad) (currentEsp : Word) : List TimerReturnRecord :=
  if pad.depth = kTimerReturnCapacity then pad.live.filter fun record => ¬record.frameEsp < currentEsp else pad.live

theorem live_push (pad : TimerReturnPad) (record : TimerReturnRecord) :
    live { pad with
      records := fun slot => if slot = pad.depth then record else pad.records slot
      depth := pad.depth + 1 } = pad.live ++ [record] := by
  unfold live
  rw [List.range_succ, List.map_append, List.map_singleton]
  congr 1
  · refine List.map_congr_left fun slot hslot => if_neg ?_
    have := List.mem_range.mp hslot
    omega
  · exact congrArg (· :: []) (if_pos rfl)

theorem push_spec (h : pad.Balanced) :
    (pad.push record esp).2.Balanced ∧
      ((pad.push record esp).1 = true ↔ (pad.kept esp).length < kTimerReturnCapacity) ∧
      (pad.push record esp).2.live = pad.kept esp ++ if (pad.push record esp).1 then [record] else [] := by
  -- The pad behind the loop, of which the rest of the push is one step.
  obtain ⟨middle, hmiddle, hbalanced, hlive⟩ : ∃ middle,
      (if kTimerReturnCapacity ≤ pad.depth then dropAbandoned esp pad.depth 0 pad else pad) = middle ∧
        middle.Balanced ∧ middle.live = pad.kept esp := by
    refine ⟨_, rfl, ?_⟩
    unfold kept
    by_cases hfull : kTimerReturnCapacity ≤ pad.depth
    · have hdepth : pad.depth = kTimerReturnCapacity := le_antisymm h.bound hfull
      have hloop : (dropAbandoned esp pad.depth 0 pad).Balanced ∧ (dropAbandoned esp pad.depth 0 pad).live =
          pad.live.take 0 ++ (pad.live.drop 0).filter fun record => ¬record.frameEsp < esp :=
        dropAbandoned_spec h (by omega) (Nat.zero_le _)
      obtain ⟨hbalanced, hlive⟩ := hloop
      rw [if_pos hfull, if_pos hdepth]
      exact ⟨hbalanced, by simpa using hlive⟩
    · rw [if_neg hfull, if_neg (by omega)]
      exact ⟨h, rfl⟩
  have hlength : (pad.kept esp).length = middle.depth := by rw [← hlive, length_live]
  unfold push
  rw [hmiddle, hlength, ← hlive]
  dsimp only
  by_cases hfull : kTimerReturnCapacity ≤ middle.depth
  · rw [if_pos hfull]
    refine ⟨⟨hbalanced.total, hbalanced.bound⟩, by simpa using hfull, ?_⟩
    exact (List.append_nil _).symm
  · rw [if_neg hfull]
    refine ⟨⟨?_, by dsimp only; omega⟩, by simpa using hfull, live_push middle record⟩
    dsimp only
    rw [hbalanced.total, BitVec.ofNat_add, show BitVec.ofNat 32 1 = 1 from rfl]
    ring

/-! ## Pops -/

theorem findFrame_eq_some {found : ℕ} (h : pad.findFrame esp index = some found) :
    found < index ∧ EndsAt esp (pad.records found) ∧
      ∀ slot, found < slot → slot < index → ¬EndsAt esp (pad.records slot) := by
  induction index with
  | zero => simp [findFrame] at h
  | succ index ih =>
    rw [findFrame] at h
    split_ifs at h with hends
    · obtain rfl := Option.some.inj h
      exact ⟨Nat.lt_succ_self _, hends, fun slot hslot hslot' => absurd hslot' (by omega)⟩
    · obtain ⟨hfound, hat, hafter⟩ := ih h
      refine ⟨by omega, hat, fun slot hslot hslot' => ?_⟩
      by_cases hnewest : slot = index
      · rwa [hnewest]
      · exact hafter slot hslot (by omega)

theorem findFrame_eq_none (h : pad.findFrame esp index = none) :
    ∀ slot < index, ¬EndsAt esp (pad.records slot) := by
  induction index with
  | zero => exact fun slot hslot => absurd hslot (Nat.not_lt_zero _)
  | succ index ih =>
    rw [findFrame] at h
    split_ifs at h with hends
    intro slot hslot
    by_cases hnewest : slot = index
    · rwa [hnewest]
    · exact ih h slot (by omega)

/-- The slot that a pop takes is one of those that are used. -/
theorem findFrame_getD_lt (hdepth : pad.depth ≠ 0) :
    (pad.findFrame esp pad.depth).getD (pad.depth - 1) < pad.depth := by
  cases hfind : pad.findFrame esp pad.depth with
  | none => exact Nat.sub_lt (Nat.pos_of_ne_zero hdepth) Nat.one_pos
  | some found => exact (findFrame_eq_some hfind).1

theorem live_take {found : ℕ} (hfound : found ≤ pad.depth) :
    live { pad with depth := found } = pad.live.take found := by
  unfold live
  rw [← List.map_take, List.take_range, min_eq_left hfound]

theorem pop_balanced (h : pad.Balanced) : (pad.pop esp).2.Balanced := by
  unfold pop
  by_cases hdepth : pad.depth = 0
  · rw [if_pos hdepth]
    exact h
  have hfound : (pad.findFrame esp pad.depth).getD (pad.depth - 1) < pad.depth := findFrame_getD_lt hdepth
  rw [if_neg hdepth]
  generalize (pad.findFrame esp pad.depth).getD (pad.depth - 1) = found at hfound
  refine ⟨?_, ?_⟩
  · have hparts : BitVec.ofNat 32 pad.depth = BitVec.ofNat 32 (pad.depth - 1 - found) + BitVec.ofNat 32 found + 1 := by
      rw [← BitVec.ofNat_add, show pad.depth = pad.depth - 1 - found + found + 1 by omega, BitVec.ofNat_add]
      congr 3
      omega
    have htotal := h.total
    rw [hparts] at htotal
    dsimp only
    rw [htotal]
    ring
  · have := h.bound
    dsimp only
    omega

/-- A pop takes the newest record that ends at the ESP, and keeps the older ones. -/
theorem pop_match {front back : List TimerReturnRecord} (hlive : pad.live = front ++ record :: back)
    (hends : EndsAt esp record) (hback : ∀ newer ∈ back, ¬EndsAt esp newer) :
    (pad.pop esp).1 = some record ∧ (pad.pop esp).2.live = front := by
  have hlength : pad.depth = front.length + (back.length + 1) := by
    rw [← length_live, hlive, List.length_append, List.length_cons]
  have hget (slot : ℕ) (hslot : slot < pad.depth) : pad.live[slot]? = some (pad.records slot) := by
    rw [List.getElem?_eq_getElem (by rwa [length_live])]
    simp [live]
  have hrecord : pad.records front.length = record := by
    have := hget front.length (by omega)
    rw [hlive, List.getElem?_append_right le_rfl, Nat.sub_self, List.getElem?_cons_zero] at this
    exact (Option.some.inj this).symm
  have hfind : pad.findFrame esp pad.depth = some front.length := by
    cases hfind : pad.findFrame esp pad.depth with
    | none => exact absurd (hrecord ▸ hends) (findFrame_eq_none hfind front.length (by omega))
    | some found =>
      obtain ⟨hfound, hat, hafter⟩ := findFrame_eq_some hfind
      have hge : front.length ≤ found :=
        Nat.le_of_not_lt fun hlt => hafter front.length hlt (by omega) (hrecord ▸ hends)
      by_cases heq : front.length = found
      · rw [heq]
      -- A later record that ends there would be in `back`.
      have hnewer := hget found hfound
      rw [hlive, List.getElem?_append_right hge, show found - front.length = found - front.length - 1 + 1 by omega,
        List.getElem?_cons_succ] at hnewer
      exact absurd hat (hback _ (List.mem_of_getElem? hnewer))
  unfold pop
  rw [if_neg (by omega), hfind]
  refine ⟨congrArg some hrecord, ?_⟩
  have htake : live { pad with depth := front.length } = pad.live.take front.length := live_take (by omega)
  rw [hlive, List.take_left] at htake
  exact htake

/-! ## Runs -/

inductive PadCall where
  | push (record : TimerReturnRecord) (currentEsp : Word)
  | pop (espAfterReturn : Word)

/-- The pad behind a call. -/
def step (pad : TimerReturnPad) : PadCall → TimerReturnPad
  | .push record currentEsp => (pad.push record currentEsp).2
  | .pop espAfterReturn => (pad.pop espAfterReturn).2

/-- A push drops records only where the pad is full, and only those of frames below the stack; a pop
takes the innermost record that ends at its ESP, if there is one, and keeps those that were pushed before it. -/
def Sound (pad : TimerReturnPad) : PadCall → Prop
  | .push record currentEsp =>
    ((pad.push record currentEsp).1 = true ↔ (pad.kept currentEsp).length < kTimerReturnCapacity) ∧
      (pad.push record currentEsp).2.live =
        pad.kept currentEsp ++ if (pad.push record currentEsp).1 then [record] else []
  | .pop espAfterReturn =>
    ∀ front record back, pad.live = front ++ record :: back → EndsAt espAfterReturn record →
      (∀ newer ∈ back, ¬EndsAt espAfterReturn newer) →
        (pad.pop espAfterReturn).1 = some record ∧ (pad.pop espAfterReturn).2.live = front

theorem step_balanced (call : PadCall) (h : pad.Balanced) : (pad.step call).Balanced := by
  cases call with
  | push record currentEsp => exact (push_spec h).1
  | pop espAfterReturn => exact pop_balanced h

theorem sound_of_balanced (call : PadCall) (h : pad.Balanced) : pad.Sound call := by
  cases call with
  | push record currentEsp => exact (push_spec h).2
  | pop espAfterReturn => exact fun _ _ _ hlive hends hback => pop_match hlive hends hback

/-! ## Nested handlers -/

/-- A handler is injected, or the innermost one that is alive returns. -/
inductive HandlerEvent where
  | inject (record : TimerReturnRecord) (currentEsp : Word)
  | finish

/-- The pad and the records of the handlers that are alive, innermost first. -/
def handlerStep : TimerReturnPad × List TimerReturnRecord → HandlerEvent → TimerReturnPad × List TimerReturnRecord
  | (pad, alive), .inject record currentEsp => ((pad.push record currentEsp).2, record :: alive)
  | (pad, record :: alive), .finish => ((pad.pop (record.frameEsp + kInterruptFrameBytes)).2, alive)
  | (pad, []), .finish => (pad, [])

/-- No more than the capacity are alive, and it is a handler that returns. -/
def Nested : TimerReturnPad × List TimerReturnRecord → HandlerEvent → Prop
  | (_, alive), .inject _ _ => alive.length < kTimerReturnCapacity
  | (_, alive), .finish => alive ≠ []

/-- A handler that returns is given its own record. -/
def ReturnsOwn : TimerReturnPad × List TimerReturnRecord → HandlerEvent → Prop
  | _, .inject _ _ => True
  | (pad, alive), .finish =>
    ∀ record ∈ alive.head?, (pad.pop (record.frameEsp + kInterruptFrameBytes)).1 = some record

/-- The records that are kept are those of the handlers that are alive. -/
def KeepsAlive (s : TimerReturnPad × List TimerReturnRecord) : Prop := s.1.Balanced ∧ s.1.live = s.2.reverse

theorem handlerStep_keepsAlive {s : TimerReturnPad × List TimerReturnRecord} {event : HandlerEvent}
    (h : KeepsAlive s) (hnested : Nested s event) : ReturnsOwn s event ∧ KeepsAlive (handlerStep s event) := by
  obtain ⟨pad, alive⟩ := s
  obtain ⟨hbalanced, hlive⟩ := h
  cases event with
  | inject record currentEsp =>
    have hdepth : pad.depth < kTimerReturnCapacity := by
      rw [← length_live, hlive, List.length_reverse]
      exact hnested
    have hkept : pad.kept currentEsp = pad.live := if_neg hdepth.ne
    obtain ⟨hbalanced', hpushed, hlive'⟩ := @push_spec pad record currentEsp hbalanced
    rw [hkept, length_live] at hpushed
    rw [hkept, hpushed.mpr hdepth, if_pos rfl, hlive] at hlive'
    exact ⟨trivial, hbalanced', hlive'.trans List.reverse_cons.symm⟩
  | finish =>
    cases alive with
    | nil => exact absurd rfl hnested
    | cons record alive =>
      rw [List.reverse_cons] at hlive
      obtain ⟨hpop, hlive'⟩ := pop_match hlive rfl fun _ hnewer => absurd hnewer List.not_mem_nil
      refine ⟨fun own hown => ?_, pop_balanced hbalanced, hlive'⟩
      obtain rfl := Option.some.inj hown
      exact hpop

end TimerReturnPad

open TimerReturnPad in
/-- Over every sequence of calls the counters balance, the depth is bounded and every call is sound;
over every nested run, from a pad of the handlers that are alive, each handler gets its own record back. -/
theorem timerReturnPad_matched :
    (∀ calls, EveryState TimerReturnPad.step Balanced empty calls ∧ EveryStep TimerReturnPad.step Sound empty calls) ∧
      KeepsAlive (empty, []) ∧
      ∀ s events, KeepsAlive s → EveryStep handlerStep Nested s events → EveryStep handlerStep ReturnsOwn s events := by
  refine ⟨?_, ⟨balanced_empty, rfl⟩, ?_⟩
  · intro calls
    have hbalanced : EveryState TimerReturnPad.step Balanced empty calls :=
      EveryState.of_step (fun _ call => step_balanced call) balanced_empty
    exact ⟨hbalanced, hbalanced.everyStep fun _ call => sound_of_balanced call⟩
  · intro s events h hnested
    induction events generalizing s with
    | nil => trivial
    | cons event events ih =>
      obtain ⟨hown, hkeeps⟩ := handlerStep_keepsAlive h hnested.1
      exact ⟨hown, ih _ hkeeps hnested.2⟩

end Repiu.Engine
