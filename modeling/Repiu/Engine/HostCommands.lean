import Mathlib.Data.List.Nodup
import Mathlib.Data.List.Perm.Basic
import Mathlib.Data.List.Range
import Repiu.StepRuns

/-!
# The host command channel

Commands that the guest thread hands to the thread of the window
(`glide_opengl_backend.cpp`). A posted command waits in a queue, a waited-on one in a slot
of its own; a pump drains the queue and then looks at the slot. Every critical section of
the mutex is one step, and so is what a thread does between two of them.
-/

namespace Repiu.Engine

open StepRuns

def kGlideMaxOutstandingSwaps : ℕ := 1
def kGlideAsyncCommandCapacity : ℕ := 64

/-- A posted command, by its number among all that were submitted. -/
structure HostCommand where
  number : ℕ
  swap : Bool
deriving DecidableEq, Repr

/-- The guest: on its way, or in `InvokeOnHostThread` behind its first critical section. -/
inductive GuestPhase
  | running | waiting
deriving DecidableEq, Repr

/-- Where the pump is. -/
inductive HostPhase
  -- between two pumps, and at the begin of one
  | idle | woken
  -- `DrainAsyncCommands`: before it takes a command, with one, and behind one
  | draining | running (command : HostCommand) | retiring | finishing
  -- before the slot is looked at, with its command, and behind it
  | checking | invoking (number : ℕ) | completing
deriving DecidableEq, Repr

/-- The channel, with what was submitted, executed and presented through it. -/
structure HostChannel where
  queue : List HostCommand := []
  queuedCommandCount : ℕ := 0
  pendingSwapCount : ℕ := 0
  /-- The command in the slot, while it is pending. -/
  hostCommand : Option ℕ := none
  hostCommandComplete : Bool := false
  hostStoppedPumping : Bool := false
  guest : GuestPhase := .running
  host : HostPhase := .idle
  submitted : ℕ := 0
  executed : List ℕ := []
  postedSwaps : ℕ := 0
  presentedSwaps : ℕ := 0

inductive ChannelEvent
  -- the guest: a post, and the two critical sections of a waited-on command
  | post (swap : Bool) | publish | resume
  -- the host: `PumpHostCommands`, `WaitAndPumpHostCommands`, and the parts of a pump
  | pump | waitAndPump | readDepth | take | run (throws : Bool) | retire | finish | check | invoke | complete
  | close
deriving DecidableEq, Repr

namespace HostChannel

def hasRoom (s : HostChannel) (swap : Bool) : Prop :=
  s.queue.length < kGlideAsyncCommandCapacity ∧ (swap = false ∨ s.pendingSwapCount < kGlideMaxOutstandingSwaps)

instance (s : HostChannel) (swap : Bool) : Decidable (s.hasRoom swap) := inferInstanceAs (Decidable (_ ∧ _))

/-- The thread of the event is at it, and nothing holds it up. -/
def Enabled (s : HostChannel) : ChannelEvent → Prop
  | .post swap => s.guest = .running ∧ s.hostStoppedPumping = false ∧ s.hasRoom swap
  | .publish => s.guest = .running ∧ s.hostCommand = none
  | .resume => s.guest = .waiting ∧ s.hostCommandComplete = true
  | .pump => s.host = .idle
  | .waitAndPump => s.host = .idle ∧ (s.hostCommand ≠ none ∨ s.queuedCommandCount ≠ 0)
  | .readDepth => s.host = .woken
  | .take => s.host = .draining
  | .run _ => ∃ command, s.host = .running command
  | .retire => s.host = .retiring
  | .finish => s.host = .finishing
  | .check => s.host = .checking
  | .invoke => ∃ number, s.host = .invoking number
  | .complete => s.host = .completing
  | .close => s.host = .idle ∨ ∃ number, s.host = .invoking number

instance (s : HostChannel) : ∀ e, Decidable (s.Enabled e)
  | .run _ =>
    match h : s.host with
    | .running command => isTrue ⟨command, h⟩
    | .idle | .woken | .draining | .retiring | .finishing | .checking | .invoking _ | .completing =>
      isFalse (by rintro ⟨command, hc⟩; rw [h] at hc; cases hc)
  | .invoke =>
    match h : s.host with
    | .invoking number => isTrue ⟨number, h⟩
    | .idle | .woken | .draining | .retiring | .finishing | .checking | .running _ | .completing =>
      isFalse (by rintro ⟨number, hn⟩; rw [h] at hn; cases hn)
  | .close =>
    match h : s.host with
    | .idle => isTrue (.inl h)
    | .invoking number => isTrue (.inr ⟨number, h⟩)
    | .woken | .draining | .retiring | .finishing | .checking | .running _ | .completing =>
      isFalse (by rintro (hi | ⟨number, hn⟩) <;> [rw [h] at hi; rw [h] at hn] <;> contradiction)
  | .post _ | .publish | .resume | .waitAndPump => inferInstanceAs (Decidable (_ ∧ _))
  | .pump | .readDepth | .take | .retire | .finish | .check | .complete => inferInstanceAs (Decidable (_ = _))

/-- What an event does. -/
def next (s : HostChannel) : ChannelEvent → HostChannel
  | .post swap =>
    { s with
      queue := s.queue ++ [⟨s.submitted, swap⟩]
      queuedCommandCount := s.queuedCommandCount + 1
      pendingSwapCount := if swap then s.pendingSwapCount + 1 else s.pendingSwapCount
      submitted := s.submitted + 1
      postedSwaps := if swap then s.postedSwaps + 1 else s.postedSwaps }
  | .publish =>
    { s with
      hostCommand := some s.submitted
      hostCommandComplete := false
      guest := .waiting
      submitted := s.submitted + 1 }
  | .resume => { s with guest := .running }
  | .pump | .waitAndPump => { s with host := .woken }
  -- read outside the lock
  | .readDepth => { s with host := if s.queuedCommandCount = 0 then .checking else .draining }
  | .take =>
    match s.queue with
    | [] => { s with host := .checking }
    | command :: queue =>
      { s with queue, queuedCommandCount := s.queuedCommandCount - 1, host := .running command }
  | .run throws =>
    match s.host with
    | .running command =>
      { s with
        executed := s.executed ++ [command.number]
        host := if command.swap ∧ ¬throws then .retiring else .finishing }
    | _ => s
  | .retire =>
    { s with
      pendingSwapCount := if s.pendingSwapCount ≠ 0 then s.pendingSwapCount - 1 else s.pendingSwapCount
      presentedSwaps := s.presentedSwaps + 1
      host := .finishing }
  | .finish => { s with host := .draining }
  | .check =>
    match s.hostCommand with
    | none => { s with host := .idle }
    | some number => { s with host := .invoking number }
  | .invoke =>
    match s.host with
    | .invoking number => { s with executed := s.executed ++ [number], host := .completing }
    | _ => s
  | .complete => { s with hostCommand := none, hostCommandComplete := true, host := .idle }
  | .close => { s with hostStoppedPumping := true, pendingSwapCount := 0 }

/-- One event; a thread that is not at it, or is held up, stays where it is. -/
def step (s : HostChannel) (e : ChannelEvent) : HostChannel := if s.Enabled e then s.next e else s

end HostChannel

namespace HostChannel

variable {s : HostChannel} {e : ChannelEvent}

/-! ## What is on its way -/

/-- The posted command that is taken off the queue and not yet executed. -/
def inFlight (s : HostChannel) : List ℕ :=
  match s.host with
  | .running command => [command.number]
  | _ => []

/-- The waited-on command that is not yet executed. -/
def slot (s : HostChannel) : List ℕ := if s.host = .completing then [] else s.hostCommand.toList

/-- The commands that wait, the next one first. -/
def waiting (s : HostChannel) : List ℕ := s.inFlight ++ s.queue.map HostCommand.number ++ s.slot

/-- A swap that is taken off the queue and not yet presented. -/
def heldSwap (s : HostChannel) : ℕ :=
  match s.host with
  | .running command => if command.swap then 1 else 0
  | .retiring => 1
  | _ => 0

section
variable {command : HostCommand} {queue : List HostCommand} {number : ℕ}

theorem next_take_nil (h : s.queue = []) : s.next .take = { s with host := .checking } := by
  cases s
  cases h
  rfl

theorem next_take_cons (h : s.queue = command :: queue) :
    s.next .take =
      { s with queue, queuedCommandCount := s.queuedCommandCount - 1, host := .running command } := by
  cases s
  cases h
  rfl

theorem next_run (h : s.host = .running command) (throws : Bool) :
    s.next (.run throws) =
      { s with
        executed := s.executed ++ [command.number]
        host := if command.swap ∧ ¬throws then .retiring else .finishing } := by
  cases s
  cases h
  rfl

theorem next_check_none (h : s.hostCommand = none) : s.next .check = { s with host := .idle } := by
  cases s
  cases h
  rfl

theorem next_check_some (h : s.hostCommand = some number) : s.next .check = { s with host := .invoking number } := by
  cases s
  cases h
  rfl

theorem next_invoke (h : s.host = .invoking number) :
    s.next .invoke = { s with executed := s.executed ++ [number], host := .completing } := by
  cases s
  cases h
  rfl

end

/-- The slot is as the two threads know it. -/
structure Linked (s : HostChannel) : Prop where
  invoking : ∀ number, s.host = .invoking number → s.hostCommand = some number
  completing : s.host = .completing → s.hostCommand ≠ none
  running : s.guest = .running → s.hostCommand = none
  complete : s.guest = .waiting → (s.hostCommandComplete = true ↔ s.hostCommand = none)

/-- The host moves on, and is not at the slot. -/
theorem Linked.move (h : Linked s) {host : HostPhase} (hinvoking : ∀ number, host ≠ .invoking number)
    (hcompleting : host ≠ .completing) {queue : List HostCommand} {executed : List ℕ}
    {count pending presented : ℕ} :
    Linked { s with queue, executed, host, queuedCommandCount := count, pendingSwapCount := pending,
                    presentedSwaps := presented } where
  invoking number hn := absurd hn (hinvoking number)
  completing hn := absurd hn hcompleting
  running := h.running
  complete := h.complete

theorem Linked.next (h : Linked s) (he : s.Enabled e) : Linked (s.next e) := by
  cases e with
  | post swap => exact ⟨h.invoking, h.completing, h.running, h.complete⟩
  | publish =>
    obtain ⟨-, hnone⟩ := he
    constructor
    · intro number hn
      have := h.invoking number hn
      rw [hnone] at this
      cases this
    · intro _ hn
      cases hn
    · intro hn
      cases hn
    · intro _
      simp [HostChannel.next]
  | resume =>
    obtain ⟨hguest, hdone⟩ := he
    constructor
    · exact h.invoking
    · exact h.completing
    · exact fun _ => (h.complete hguest).mp hdone
    · intro hn
      cases hn
  | pump | waitAndPump | retire | finish => exact h.move (by simp) (by simp)
  | readDepth =>
    simp only [HostChannel.next]
    split <;> exact h.move (by simp) (by simp)
  | take =>
    cases hqueue : s.queue with
    | nil =>
      rw [next_take_nil hqueue]
      exact h.move (by simp) (by simp)
    | cons command queue =>
      rw [next_take_cons hqueue]
      exact h.move (by simp) (by simp)
  | run throws =>
    obtain ⟨command, hhost⟩ := he
    rw [next_run hhost]
    split <;> exact h.move (by simp) (by simp)
  | check =>
    cases hslot : s.hostCommand with
    | none =>
      rw [next_check_none hslot]
      exact h.move (by simp) (by simp)
    | some number =>
      rw [next_check_some hslot]
      constructor
      · intro n hn
        cases hn
        exact hslot
      · intro hn
        cases hn
      · exact h.running
      · exact h.complete
  | invoke =>
    obtain ⟨number, hhost⟩ := he
    rw [next_invoke hhost]
    constructor
    · intro n hn
      cases hn
    · intro _
      rw [h.invoking number hhost]
      exact Option.some_ne_none number
    · exact h.running
    · exact h.complete
  | complete =>
    constructor
    · intro n hn
      cases hn
    · intro hn
      cases hn
    · intro _
      rfl
    · intro _
      simp [HostChannel.next]
  | close => exact ⟨h.invoking, h.completing, h.running, h.complete⟩

/-! ## Bounds -/

/-- The queue and its counter, and the swaps that are not yet presented. -/
structure Bounded (s : HostChannel) : Prop where
  count : s.queuedCommandCount = s.queue.length
  capacity : s.queue.length ≤ kGlideAsyncCommandCapacity
  swaps : s.hostStoppedPumping = false → s.pendingSwapCount + s.presentedSwaps = s.postedSwaps ∧
    s.pendingSwapCount ≤ kGlideMaxOutstandingSwaps
  held : s.hostStoppedPumping = false →
    (s.queue.filter HostCommand.swap).length + s.heldSwap ≤ s.pendingSwapCount

/-- The host moves on, and holds no more swaps than before. -/
theorem Bounded.move (h : Bounded s) {host : HostPhase} {executed : List ℕ} {hostCommand : Option ℕ} {complete : Bool}
    (hheld : ({ s with host } : HostChannel).heldSwap ≤ s.heldSwap) :
    Bounded { s with executed, host, hostCommand, hostCommandComplete := complete } where
  count := h.count
  capacity := h.capacity
  swaps := h.swaps
  held hopen := (Nat.add_le_add_left hheld _).trans (h.held hopen)

theorem Bounded.next (h : Bounded s) (he : s.Enabled e) : Bounded (s.next e) := by
  cases e with
  | post swap =>
    obtain ⟨-, hopen, hlength, hroom⟩ := he
    obtain ⟨hpending, hmax⟩ := h.swaps hopen
    have hheld := h.held hopen
    constructor
    · simp [HostChannel.next, h.count]
    · simpa [HostChannel.next, Nat.succ_le_iff] using hlength
    · intro _
      cases swap with
      | true =>
        have hroom := hroom.resolve_left (by decide)
        simp only [HostChannel.next, if_true]
        omega
      | false => exact ⟨hpending, hmax⟩
    · intro _
      show ((s.queue ++ [({ number := s.submitted, swap } : HostCommand)]).filter HostCommand.swap).length + s.heldSwap ≤ _
      rw [List.filter_append, List.length_append]
      cases swap with
      | true =>
        show _ + 1 + s.heldSwap ≤ s.pendingSwapCount + 1
        omega
      | false => exact hheld
  | publish => exact ⟨h.count, h.capacity, h.swaps, h.held⟩
  | resume => exact ⟨h.count, h.capacity, h.swaps, h.held⟩
  | pump | waitAndPump | finish | complete => exact h.move (Nat.zero_le _)
  | readDepth =>
    simp only [HostChannel.next]
    split <;> exact h.move (Nat.zero_le _)
  | take =>
    cases hqueue : s.queue with
    | nil =>
      rw [next_take_nil hqueue]
      exact h.move (Nat.zero_le _)
    | cons command queue =>
      rw [next_take_cons hqueue]
      have hcount := h.count
      have hcapacity := h.capacity
      rw [hqueue, List.length_cons] at hcount hcapacity
      constructor
      · show s.queuedCommandCount - 1 = queue.length
        omega
      · exact (Nat.le_succ _).trans hcapacity
      · exact h.swaps
      · intro hopen
        have hheld := h.held hopen
        rw [hqueue, List.filter_cons] at hheld
        show (queue.filter HostCommand.swap).length + (if command.swap then 1 else 0) ≤ s.pendingSwapCount
        by_cases hswap : command.swap = true
        · rw [if_pos hswap, List.length_cons] at hheld
          rw [if_pos hswap]
          exact (Nat.le_add_right _ _).trans hheld
        · rw [if_neg hswap] at hheld
          rw [if_neg hswap]
          exact (Nat.le_add_right _ _).trans hheld
  | run throws =>
    obtain ⟨command, hhost⟩ := he
    rw [next_run hhost]
    refine h.move ?_
    by_cases hswap : command.swap ∧ ¬throws
    · rw [if_pos hswap]
      simp [heldSwap, hhost, hswap.1]
    · rw [if_neg hswap]
      exact Nat.zero_le _
  | retire =>
    have hone : s.heldSwap = 1 := by simp [heldSwap, show s.host = .retiring from he]
    constructor
    · exact h.count
    · exact h.capacity
    · intro hopen
      obtain ⟨hpending, hmax⟩ := h.swaps hopen
      have hheld := h.held hopen
      rw [hone] at hheld
      simp only [HostChannel.next]
      rw [if_pos (by omega)]
      omega
    · intro hopen
      have hheld := h.held hopen
      rw [hone] at hheld
      simp only [HostChannel.next, heldSwap]
      rw [if_pos (by omega)]
      omega
  | check =>
    cases hslot : s.hostCommand with
    | none =>
      rw [next_check_none hslot]
      exact h.move (Nat.zero_le _)
    | some number =>
      rw [next_check_some hslot]
      exact h.move (Nat.zero_le _)
  | invoke =>
    obtain ⟨number, hhost⟩ := he
    rw [next_invoke hhost]
    exact h.move (Nat.zero_le _)
  | close =>
    constructor
    · exact h.count
    · exact h.capacity
    · intro hopen
      cases hopen
    · intro hopen
      cases hopen

/-! ## Order -/

/-- The executed commands and those that wait. -/
def line (s : HostChannel) : List ℕ := s.executed ++ s.waiting

/-- The slot is empty while the guest is on its way. -/
theorem Linked.slot_eq_nil (h : Linked s) (hguest : s.guest = .running) : s.slot = [] := by
  rw [slot, h.running hguest]
  exact ite_self _

theorem slot_of_host_ne (h : s.host ≠ .completing) : s.slot = s.hostCommand.toList := if_neg h

theorem Linked.not_at_slot (h : Linked s) (hnone : s.hostCommand = none) :
    (∀ number, s.host ≠ .invoking number) ∧ s.host ≠ .completing := by
  constructor
  · intro number hn
    have := h.invoking number hn
    rw [hnone] at this
    cases this
  · intro hn
    exact h.completing hn hnone

end HostChannel

/-- The event hands a command to the channel. -/
def ChannelEvent.submits : ChannelEvent → Bool
  | .post _ | .publish => true
  | _ => false

namespace HostChannel

variable {s : HostChannel} {e : ChannelEvent}

theorem submitted_next (he : s.Enabled e) :
    (s.next e).submitted = if e.submits then s.submitted + 1 else s.submitted := by
  cases e with
  | take => cases hqueue : s.queue <;> simp only [HostChannel.next, hqueue] <;> rfl
  | run throws =>
    obtain ⟨command, hhost⟩ := he
    rw [next_run hhost]
    rfl
  | check => cases hslot : s.hostCommand <;> simp only [HostChannel.next, hslot] <;> rfl
  | invoke =>
    obtain ⟨number, hhost⟩ := he
    rw [next_invoke hhost]
    rfl
  | post _ | publish | resume | pump | waitAndPump | readDepth | retire | finish | complete | close => rfl

/-- A submitted command goes to the end of the line, and the line moves on without a change
wherever the host does not run the slot. -/
theorem line_next (h : Linked s) (he : s.Enabled e) (hinvoke : e ≠ .invoke) :
    (s.next e).line = s.line ++ if e.submits then [s.submitted] else [] := by
  cases e with
  | post swap =>
    have hslot := h.slot_eq_nil he.1
    have hafter : (s.next (.post swap)).slot = [] := hslot
    simp only [line, waiting, hslot, hafter]
    simp [HostChannel.next, inFlight, ChannelEvent.submits]
  | publish =>
    obtain ⟨-, hnone⟩ := he
    have hhost := (h.not_at_slot hnone).2
    have hbefore : s.slot = [] := by rw [slot_of_host_ne hhost, hnone]; rfl
    have hafter : (s.next .publish).slot = [s.submitted] := slot_of_host_ne hhost
    simp only [line, waiting, hbefore, hafter]
    simp [HostChannel.next, inFlight, ChannelEvent.submits]
  | resume => exact (List.append_nil _).symm
  | pump =>
    have hhost : s.host = .idle := he
    simp [HostChannel.next, line, waiting, inFlight, slot, ChannelEvent.submits, hhost]
  | waitAndPump =>
    have hhost : s.host = .idle := he.1
    simp [HostChannel.next, line, waiting, inFlight, slot, ChannelEvent.submits, hhost]
  | readDepth =>
    have hhost : s.host = .woken := he
    simp only [HostChannel.next]
    split <;> simp [line, waiting, inFlight, slot, ChannelEvent.submits, hhost]
  | retire =>
    have hhost : s.host = .retiring := he
    simp [HostChannel.next, line, waiting, inFlight, slot, ChannelEvent.submits, hhost]
  | finish =>
    have hhost : s.host = .finishing := he
    simp [HostChannel.next, line, waiting, inFlight, slot, ChannelEvent.submits, hhost]
  | take =>
    have hhost : s.host = .draining := he
    cases hqueue : s.queue with
    | nil =>
      rw [next_take_nil hqueue]
      simp [line, waiting, inFlight, slot, ChannelEvent.submits, hhost]
    | cons command queue =>
      rw [next_take_cons hqueue]
      simp [line, waiting, inFlight, slot, ChannelEvent.submits, hhost, hqueue]
  | run throws =>
    obtain ⟨command, hhost⟩ := he
    rw [next_run hhost]
    split <;> simp [line, waiting, inFlight, slot, ChannelEvent.submits, hhost]
  | check =>
    have hhost : s.host = .checking := he
    cases hslot : s.hostCommand with
    | none =>
      rw [next_check_none hslot]
      simp [line, waiting, inFlight, slot, ChannelEvent.submits, hhost, hslot]
    | some number =>
      rw [next_check_some hslot]
      simp [line, waiting, inFlight, slot, ChannelEvent.submits, hhost, hslot]
  | invoke => exact absurd rfl hinvoke
  | complete =>
    have hhost : s.host = .completing := he
    simp [HostChannel.next, line, waiting, inFlight, slot, ChannelEvent.submits, hhost]
  | close => exact (List.append_nil _).symm

/-- The slot overtakes the queue. -/
theorem Linked.line_invoke (h : Linked s) {number : ℕ} (hhost : s.host = .invoking number) :
    s.line = s.executed ++ (s.queue.map HostCommand.number ++ [number]) ∧
      (s.next .invoke).line = s.executed ++ (number :: s.queue.map HostCommand.number) := by
  have hslot := h.invoking number hhost
  rw [next_invoke hhost]
  constructor <;> simp [line, waiting, inFlight, slot, hhost, hslot]

/-- Every command that was submitted is executed or waits, once. -/
def Accounted (s : HostChannel) : Prop := s.line.Perm (List.range s.submitted)

theorem Accounted.next (ha : Accounted s) (h : Linked s) (he : s.Enabled e) : Accounted (s.next e) := by
  rw [Accounted, submitted_next he]
  by_cases hinvoke : e = .invoke
  · subst hinvoke
    obtain ⟨number, hhost⟩ := he
    obtain ⟨hbefore, hafter⟩ := h.line_invoke hhost
    rw [hafter]
    rw [Accounted, hbefore] at ha
    exact ((List.perm_append_singleton number _).symm.append_left s.executed).trans ha
  · rw [line_next h he hinvoke]
    split
    · rw [List.range_succ]
      exact ha.append_right _
    · rw [List.append_nil]
      exact ha

/-- The commands go in the order of their submission. Where the host is at a waited-on command, or the
guest is to return from one, no posted command waits. -/
structure Ordered (s : HostChannel) : Prop where
  order : s.line = List.range s.submitted
  drained : (∃ number, s.host = .invoking number) ∨ s.host = .completing ∨
    (s.guest = .waiting ∧ s.hostCommand = none) → s.inFlight = [] ∧ s.queue = []

/-- The condition on a step: the pump finds no posted command waiting where it finds a waited-on one. -/
def CheckedDrained (s : HostChannel) (e : ChannelEvent) : Prop :=
  e = .check → s.host = .checking → s.hostCommand ≠ none → s.queue = []

theorem Ordered.next (h : Ordered s) (hl : Linked s) (he : s.Enabled e) (hc : s.CheckedDrained e) :
    Ordered (s.next e) where
  order := by
    rw [submitted_next he]
    by_cases hinvoke : e = .invoke
    · subst hinvoke
      obtain ⟨number, hhost⟩ := he
      obtain ⟨hbefore, hafter⟩ := hl.line_invoke hhost
      have horder := h.order
      rw [hbefore] at horder
      rw [hafter, (h.drained (.inl ⟨number, hhost⟩)).2]
      rwa [(h.drained (.inl ⟨number, hhost⟩)).2] at horder
    · rw [line_next hl he hinvoke, h.order]
      split
      · exact List.range_succ.symm
      · exact List.append_nil _
  drained := by
    cases e with
    | post swap =>
      obtain ⟨hguest, -⟩ := he
      obtain ⟨hinvoking, hcompleting⟩ := hl.not_at_slot (hl.running hguest)
      rintro (⟨number, hn⟩ | hn | ⟨hn, -⟩)
      · exact absurd hn (hinvoking number)
      · exact absurd hn hcompleting
      · exact absurd (hguest.symm.trans hn) (by decide)
    | publish =>
      obtain ⟨hinvoking, hcompleting⟩ := hl.not_at_slot he.2
      rintro (⟨number, hn⟩ | hn | ⟨-, hn⟩)
      · exact absurd hn (hinvoking number)
      · exact absurd hn hcompleting
      · exact absurd hn (Option.some_ne_none _)
    | resume =>
      obtain ⟨hinvoking, hcompleting⟩ := hl.not_at_slot ((hl.complete he.1).mp he.2)
      rintro (⟨number, hn⟩ | hn | ⟨hn, -⟩)
      · exact absurd hn (hinvoking number)
      · exact absurd hn hcompleting
      · exact absurd hn (by simp [HostChannel.next])
    | pump | waitAndPump | retire | finish =>
      rintro (⟨number, hn⟩ | hn | hn)
      · cases hn
      · cases hn
      · exact ⟨rfl, (h.drained (.inr (.inr hn))).2⟩
    | readDepth =>
      simp only [HostChannel.next]
      split <;>
      · rintro (⟨number, hn⟩ | hn | hn)
        · cases hn
        · cases hn
        · exact ⟨rfl, (h.drained (.inr (.inr hn))).2⟩
    | take =>
      cases hqueue : s.queue with
      | nil =>
        rw [next_take_nil hqueue]
        exact fun _ => ⟨rfl, hqueue⟩
      | cons command queue =>
        rw [next_take_cons hqueue]
        rintro (⟨number, hn⟩ | hn | hn)
        · cases hn
        · cases hn
        · have := (h.drained (.inr (.inr hn))).2
          rw [hqueue] at this
          cases this
    | run throws =>
      obtain ⟨command, hhost⟩ := he
      rw [next_run hhost]
      split <;>
      · rintro (⟨number, hn⟩ | hn | hn)
        · cases hn
        · cases hn
        · exact ⟨rfl, (h.drained (.inr (.inr hn))).2⟩
    | check =>
      cases hslot : s.hostCommand with
      | none =>
        rw [next_check_none hslot]
        rintro (⟨number, hn⟩ | hn | ⟨hn, -⟩)
        · cases hn
        · cases hn
        · exact ⟨rfl, (h.drained (.inr (.inr ⟨hn, hslot⟩))).2⟩
      | some number =>
        -- the one place where the queue is not looked at again
        rw [next_check_some hslot]
        intro _
        exact ⟨rfl, hc rfl he (hslot ▸ Option.some_ne_none number)⟩
    | invoke =>
      obtain ⟨number, hhost⟩ := he
      rw [next_invoke hhost]
      exact fun _ => ⟨rfl, (h.drained (.inl ⟨number, hhost⟩)).2⟩
    | complete => exact fun _ => ⟨rfl, (h.drained (.inr (.inl he))).2⟩
    | close => exact h.drained

/-! ## Runs -/

/-- What `next` keeps where the event is enabled, `step` keeps. -/
theorem step_cases (s : HostChannel) (e : ChannelEvent) : (s.Enabled e ∧ s.step e = s.next e) ∨ s.step e = s := by
  by_cases he : s.Enabled e
  · exact .inl ⟨he, if_pos he⟩
  · exact .inr (if_neg he)

theorem Linked.step (h : Linked s) (e : ChannelEvent) : Linked (s.step e) := by
  rcases step_cases s e with ⟨he, hs⟩ | hs
  · rw [hs]
    exact h.next he
  · rwa [hs]

theorem Bounded.step (h : Bounded s) (e : ChannelEvent) : Bounded (s.step e) := by
  rcases step_cases s e with ⟨he, hs⟩ | hs
  · rw [hs]
    exact h.next he
  · rwa [hs]

theorem Accounted.step (ha : Accounted s) (h : Linked s) (e : ChannelEvent) : Accounted (s.step e) := by
  rcases step_cases s e with ⟨he, hs⟩ | hs
  · rw [hs]
    exact ha.next h he
  · rwa [hs]

theorem Ordered.step (h : Ordered s) (hl : Linked s) (hc : s.CheckedDrained e) : Ordered (s.step e) := by
  rcases step_cases s e with ⟨he, hs⟩ | hs
  · rw [hs]
    exact h.next hl he hc
  · rwa [hs]

/-- The fields of a channel that nothing was submitted to. -/
theorem linked_fresh : Linked {} := by
  constructor <;> simp

theorem bounded_fresh : Bounded {} := by
  constructor <;> simp [kGlideAsyncCommandCapacity, kGlideMaxOutstandingSwaps, heldSwap]

theorem ordered_fresh : Ordered {} := by
  constructor <;> simp [line, waiting, inFlight, slot]

theorem Accounted.executed_nodup (h : Accounted s) : s.executed.Nodup :=
  (h.nodup_iff.mpr List.nodup_range).of_append_left

theorem Accounted.lt_submitted (h : Accounted s) {number : ℕ} (hn : number ∈ s.executed) : number < s.submitted :=
  List.mem_range.mp (h.subset (List.mem_append_left _ hn))

theorem Ordered.executed_initial (h : Ordered s) : s.executed <+: List.range s.submitted :=
  h.order ▸ List.prefix_append _ _

/-- Nothing waits behind a waited-on command that is complete. -/
theorem Ordered.executed_of_complete (h : Ordered s) (hl : Linked s) (hguest : s.guest = .waiting)
    (hcomplete : s.hostCommandComplete = true) : s.executed = List.range s.submitted := by
  have hnone := (hl.complete hguest).mp hcomplete
  obtain ⟨hflight, hqueue⟩ := h.drained (.inr (.inr ⟨hguest, hnone⟩))
  have hslot : s.slot = [] := by
    rw [slot, hnone]
    exact ite_self _
  have horder := h.order
  rwa [line, waiting, hflight, hqueue, hslot, List.map_nil, List.append_nil, List.append_nil, List.append_nil]
    at horder

/-- In every run a command is executed at most once, the queue keeps its bound and its counter, and the
counter of the swaps its own until the channel is closed. The commands are executed in the order of their
submission, and a waited-on one completes behind all that came before it, in every run in which the pump
never finds a waited-on command while a posted one waits. -/
theorem commands_in_order (events : List ChannelEvent) :
    EveryState step
        (fun s =>
          s.executed.Nodup ∧ (∀ number ∈ s.executed, number < s.submitted) ∧
          s.queue.length ≤ kGlideAsyncCommandCapacity ∧ s.queuedCommandCount = s.queue.length ∧
          (s.hostStoppedPumping = false →
            s.pendingSwapCount + s.presentedSwaps = s.postedSwaps ∧
              s.pendingSwapCount ≤ kGlideMaxOutstandingSwaps))
        {} events ∧
      (EveryStep step CheckedDrained {} events →
        EveryState step
          (fun s =>
            s.executed <+: List.range s.submitted ∧
            (s.guest = .waiting → s.hostCommandComplete = true → s.executed = List.range s.submitted))
          {} events) := by
  constructor
  · have hrun : EveryState step (fun s => Linked s ∧ Bounded s ∧ Accounted s) {} events := by
      refine .of_step ?_ ⟨linked_fresh, bounded_fresh, .of_eq ordered_fresh.order⟩
      rintro s e ⟨hl, hb, ha⟩
      exact ⟨hl.step e, hb.step e, ha.step hl e⟩
    refine hrun.mono ?_
    rintro s ⟨-, hb, ha⟩
    exact ⟨ha.executed_nodup, fun _ => ha.lt_submitted, hb.capacity, hb.count, hb.swaps⟩
  · intro hdrained
    have hrun : EveryState step (fun s => Linked s ∧ Ordered s) {} events := by
      refine hdrained.everyState ⟨linked_fresh, ordered_fresh⟩ ?_
      rintro s e ⟨hl, ho⟩ hc
      exact ⟨hl.step e, ho.step hl hc⟩
    refine hrun.mono ?_
    rintro s ⟨hl, ho⟩
    exact ⟨ho.executed_initial, ho.executed_of_complete hl⟩

/-- A command that is posted, and one that is waited on, while the pump stands between the queue and the
slot: the second runs and completes before the first. -/
def overtaken : List ChannelEvent := [.pump, .readDepth, .post false, .publish, .check, .invoke, .complete]

theorem waited_command_overtakes_posted :
    ¬ ∀ events,
      EveryState step
        (fun s =>
          s.executed <+: List.range s.submitted ∧
          (s.guest = .waiting → s.hostCommandComplete = true → s.executed = List.range s.submitted))
        {} events := by
  intro h
  have hlast := (h overtaken).last.2 (by decide) (by decide)
  exact absurd hlast (by decide)

end HostChannel

end Repiu.Engine
