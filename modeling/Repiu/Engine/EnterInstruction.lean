import Repiu.Engine.GuestStack
import Repiu.X86.StackFrames

/-!
# ENTER

The emulation of ENTER (`HandleEnterInstruction`), which reads the whole display before it writes the frame, against
the instruction in 32-bit code on a 32-bit stack.
-/

namespace Repiu.Engine

open X86

/-- EBP. -/
def GuestCpuContext.ebp (c : GuestCpuContext) : Word := c.registers 5

/-- `ReadGuestUInt32`. -/
def GuestArena.readGuestUInt32 (arena : GuestArena) (memory : DataMemory) (source : Word) : Option Word :=
  if arena.isGuestRangeReadable source 4 then some (memory.getWord source) else none

/-! ## The handler -/

section
variable (arena : GuestArena) (memory : DataMemory)

/-- The loop that reads the display, for as many words as given: where each is, and what it is. -/
def readDisplay (oldEbp : Word) : ℕ → ℕ → Option (List (Word × Word))
  | 0, _ => some []
  | n + 1, index =>
    let sourceOffset := index * 4
    let source := oldEbp - BitVec.ofNat 32 sourceOffset
    if oldEbp.toNat < sourceOffset then none
    else
      match arena.readGuestUInt32 memory source with
      | none => none
      | some value => (readDisplay oldEbp n (index + 1)).map ((source, value) :: ·)

/-- What the loop that writes the frame leaves. -/
structure FrameWrite where
  written : Bool
  destination : Word
  memory : DataMemory
  writes : List Word

/-- The loop that writes the frame, over what the host does at each word. -/
def writeFrame : (ℕ → HostOutcomes) → List Word → Word → DataMemory → FrameWrite
  | _, [], destination, memory => ⟨true, destination, memory, []⟩
  | host, value :: values, destination, memory =>
    let destination := destination - 4
    let (written, memory) := writeGuestUInt arena (host 0) memory destination value 4
    if !written then ⟨false, destination, memory, [destination]⟩
    else
      let rest := writeFrame (fun k => host (k + 1)) values destination memory
      { rest with writes := destination :: rest.writes }

/-- What the handler leaves, with the addresses that it has read and written. -/
structure EnterOutcome where
  handled : Bool
  context : GuestCpuContext
  memory : DataMemory
  reads : List Word := []
  writes : List Word := []

/-- `HandleEnterInstruction`. -/
def handleEnterInstruction (host : ℕ → HostOutcomes) (c : GuestCpuContext) : EnterOutcome :=
  let refused : EnterOutcome := { handled := false, context := c, memory := memory }
  let instruction (k : ℕ) : Byte := memory (c.eip + BitVec.ofNat 32 k)
  if !arena.isGuestRangeReadable c.eip 4 ∨ instruction 0 ≠ 0xC8 then refused
  else
    let allocationSize : BitVec 16 := (instruction 1).setWidth 16 ||| (instruction 2).setWidth 16 <<< 8
    let nestingLevel := (instruction 3 &&& 0x1F).toNat
    let pushCount := if nestingLevel = 0 then 1 else nestingLevel + 1
    let frameBytes := pushCount * 4
    let frameDestination := c.esp - BitVec.ofNat 32 frameBytes
    if c.esp.toNat < frameBytes then refused
    else if !arena.isGuestRangeReadable frameDestination frameBytes then refused
    else
      match readDisplay arena memory c.ebp (nestingLevel - 1) 1 with
      | none => refused
      | some display =>
        let framePointer := c.esp - 4
        let frameValues := c.ebp :: display.map Prod.snd ++ if nestingLevel ≠ 0 then [framePointer] else []
        let frame := writeFrame arena host frameValues c.esp memory
        { handled := frame.written
          context :=
            if !frame.written then c
            else
              ((c.writeRegister32 5 framePointer).writeRegister32 4
                (frame.destination - allocationSize.setWidth 32)).skip 4
          memory := frame.memory
          reads := display.map Prod.fst
          writes := frame.writes }

/-! ## The instruction -/

/-- The nesting level of an ENTER. -/
def enterLevel (c : GuestCpuContext) : ℕ := (memory (c.eip + 3)).toNat % 32

/-- The room that an ENTER allocates. -/
def enterAllocation (c : GuestCpuContext) : BitVec 16 := memory (c.eip + 2) ++ memory (c.eip + 1)

/-- What the instruction does, in the stack segment with this base. -/
def enterFrame (ss : Word) (c : GuestCpuContext) : FrameState :=
  FrameState.enter ss (enterAllocation memory c) (enterLevel memory c) { esp := c.esp, ebp := c.ebp, memory := memory }

/-- The handler reads, writes and leaves what the instruction does, or leaves all as it was. -/
def EnterCorrect (ss : Word) (host : ℕ → HostOutcomes) (c : GuestCpuContext) : Prop :=
  let outcome := handleEnterInstruction arena memory host c
  let frame := enterFrame memory ss c
  if outcome.handled then
    outcome.reads = frame.reads ∧ outcome.writes = frame.writes ∧ outcome.memory = frame.memory ∧
      outcome.context = ((c.writeRegister32 5 frame.ebp).writeRegister32 4 frame.esp).skip 4
  else outcome.context = c ∧ outcome.memory = memory

/-- There is an ENTER, and its frame and the display that it copies are in the arena. -/
structure EnterInRange (c : GuestCpuContext) : Prop where
  readable : arena.isGuestRangeReadable c.eip 4 = true
  opcode : memory c.eip = 0xC8
  above : 4 * enterCount (enterLevel memory c) ≤ c.esp.toNat
  frame : arena.isGuestRangeReadable (c.esp - BitVec.ofNat 32 (4 * enterCount (enterLevel memory c)))
    (4 * enterCount (enterLevel memory c)) = true
  display : ∀ i, 1 ≤ i → i < enterLevel memory c →
    4 * i ≤ c.ebp.toNat ∧ arena.isGuestRangeReadable (displaySlot c.ebp i) 4 = true

end

/-- A word of the frame, of which the display is as it was before the frame was written. -/
def frameWord (memory : DataMemory) (esp ebp : Word) (level j : ℕ) : Word :=
  if level ≠ 0 ∧ j = level then esp - 4 else savedValue memory ebp j

namespace HostOutcomes

/-- The host makes a place writable, protects it again and notes the write. -/
def stores (host : HostOutcomes) : Bool := host.protects ∧ host.restores ∧ host.notes

end HostOutcomes

/-- The host stores every word of a frame. -/
def StoresFrame (host : ℕ → HostOutcomes) (level : ℕ) : Prop := ∀ j < enterCount level, (host j).stores = true

/-- The host gets as far as to store the word with this number. -/
def StoresWord (host : ℕ → HostOutcomes) (j : ℕ) : Prop :=
  (host j).protects = true ∧ ∀ k < j, (host k).stores = true

/-! ## Stores of the frame -/

/-- The bytes of a word by shifts. -/
theorem shifted_byte (v : Word) {k : ℕ} (hk : k < 4) : (v >>> (k * 8)).setWidth 8 = (le32 v).getD k 0 := by
  have hbyte : ∀ start, (v >>> start).setWidth 8 = v.extractLsb' start 8 := by
    intro start
    apply BitVec.eq_of_getLsbD_eq
    intro i hi
    rw [BitVec.getLsbD_setWidth, BitVec.getLsbD_ushiftRight, BitVec.getLsbD_extractLsb']
  rw [hbyte]
  interval_cases k <;> rfl

section
variable {arena : GuestArena} {memory : DataMemory} {host : ℕ → HostOutcomes}

theorem writeGuestUInt_word {destination : Word} (hrange : arena.isGuestRangeReadable destination 4 = true)
    (outcomes : HostOutcomes) (value : Word) :
    writeGuestUInt arena outcomes memory destination value 4 =
      (outcomes.stores, if outcomes.protects then memory.setWord destination value else memory) := by
  have hwritten : (fun x => if (x - destination).toNat < 4 then
      (value >>> ((x - destination).toNat * 8)).setWidth 8 else memory x) = memory.setWord destination value := by
    funext x
    unfold DataMemory.setWord
    split_ifs with hx
    · exact shifted_byte value hx
    · rfl
  unfold writeGuestUInt
  rw [hrange, hwritten]
  obtain ⟨readCompletes, protects, restores, notes⟩ := outcomes
  cases protects <;> cases restores <;> cases notes <;> rfl

theorem writeFrame_cons {value : Word} {values : List Word} {esp : Word}
    (hslot : arena.isGuestRangeReadable (esp - 4) 4 = true) (hstores : (host 0).stores = true) :
    writeFrame arena host (value :: values) esp memory =
      let rest := writeFrame arena (fun k => host (k + 1)) values (esp - 4) (memory.setWord (esp - 4) value)
      { rest with writes := (esp - 4) :: rest.writes } := by
  have hprotects : (host 0).protects = true := (of_decide_eq_true hstores).1
  rw [writeFrame, writeGuestUInt_word hslot, hstores, hprotects]
  rfl

theorem writeFrame_cons_failed {value : Word} {values : List Word} {esp : Word}
    (hslot : arena.isGuestRangeReadable (esp - 4) 4 = true) (hstores : (host 0).stores = false) :
    writeFrame arena host (value :: values) esp memory =
      ⟨false, esp - 4, if (host 0).protects then memory.setWord (esp - 4) value else memory, [esp - 4]⟩ := by
  rw [writeFrame, writeGuestUInt_word hslot, hstores]
  rfl

theorem writeFrame_written {values : List Word} {esp : Word}
    (hslots : ∀ j < values.length, arena.isGuestRangeReadable (pushSlot esp j) 4 = true)
    (hhost : ∀ j < values.length, (host j).stores = true) :
    writeFrame arena host values esp memory =
      ⟨true, esp - BitVec.ofNat 32 (4 * values.length), pushWords memory esp values,
        (List.range values.length).map (pushSlot esp)⟩ := by
  induction values generalizing host esp memory with
  | nil =>
    show _ = (⟨true, esp - 0, memory, []⟩ : FrameWrite)
    rw [sub_zero, writeFrame]
  | cons value values ih =>
    have hslots' : ∀ j < values.length, arena.isGuestRangeReadable (pushSlot (esp - 4) j) 4 = true :=
      fun j hj => (pushSlot_succ esp j).symm ▸ hslots (j + 1) (Nat.succ_lt_succ hj)
    have hhost' : ∀ j < values.length, (host (j + 1)).stores = true := fun j hj => hhost (j + 1) (Nat.succ_lt_succ hj)
    have hdestination : esp - 4 - BitVec.ofNat 32 (4 * values.length) =
        esp - BitVec.ofNat 32 (4 * (values.length + 1)) := by
      rw [mul_add, BitVec.ofNat_add, sub_sub, add_comm]
      rfl
    have hwrites : (esp - 4) :: (List.range values.length).map (pushSlot (esp - 4)) =
        (List.range (values.length + 1)).map (pushSlot esp) := by
      rw [List.range_succ_eq_map, List.map_cons, List.map_map]
      congr 1
      exact List.map_congr_left fun j _ => pushSlot_succ esp j
    rw [writeFrame_cons (hslots 0 (Nat.zero_lt_succ _)) (hhost 0 (Nat.zero_lt_succ _)), ih hslots' hhost', hdestination]
    dsimp only
    rw [hwrites]
    rfl

/-- Where the host fails, the words that it got to are there. -/
theorem writeFrame_stopped {values : List Word} {esp : Word}
    (hslots : ∀ j < values.length, arena.isGuestRangeReadable (pushSlot esp j) 4 = true)
    (hhost : ¬∀ j < values.length, (host j).stores = true) :
    (writeFrame arena host values esp memory).written = false ∧
      ∃ k ≤ values.length, (writeFrame arena host values esp memory).memory = pushWords memory esp (values.take k) ∧
        ∀ j < values.length, StoresWord host j ↔ j < k := by
  induction values generalizing host esp memory with
  | nil => exact absurd (fun j hj => absurd hj (Nat.not_lt_zero j)) hhost
  | cons value values ih =>
    cases hstores : (host 0).stores with
    | false =>
      have hlater : ∀ j, 0 < j → ¬StoresWord host j := by
        intro j hj hword
        rw [hword.2 0 hj] at hstores
        exact absurd hstores (by decide)
      rw [writeFrame_cons_failed (hslots 0 (Nat.zero_lt_succ _)) hstores]
      refine ⟨rfl, ?_⟩
      cases hprotects : (host 0).protects with
      | false =>
        refine ⟨0, Nat.zero_le _, rfl, fun j _ => iff_of_false ?_ (Nat.not_lt_zero j)⟩
        rcases Nat.eq_zero_or_pos j with rfl | hj
        · rintro ⟨hword, -⟩
          rw [hprotects] at hword
          exact absurd hword (by decide)
        · exact hlater j hj
      | true =>
        refine ⟨1, Nat.succ_le_succ (Nat.zero_le _), rfl, fun j _ => ?_⟩
        rcases Nat.eq_zero_or_pos j with rfl | hj
        · exact iff_of_true ⟨hprotects, fun k hk => absurd hk (Nat.not_lt_zero k)⟩ Nat.one_pos
        · exact iff_of_false (hlater j hj) (by omega)
    | true =>
      have hprotects : (host 0).protects = true := (of_decide_eq_true hstores).1
      have hfirst : ¬∀ j < values.length, (host (j + 1)).stores = true := by
        intro hall
        refine hhost fun j hj => ?_
        cases j with
        | zero => exact hstores
        | succ j => exact hall j (Nat.lt_of_succ_lt_succ hj)
      have hslots' : ∀ j < values.length, arena.isGuestRangeReadable (pushSlot (esp - 4) j) 4 = true :=
        fun j hj => (pushSlot_succ esp j).symm ▸ hslots (j + 1) (Nat.succ_lt_succ hj)
      rw [writeFrame_cons (hslots 0 (Nat.zero_lt_succ _)) hstores]
      obtain ⟨hstopped, k, hk, hmemory, hwords⟩ := @ih (memory.setWord (esp - 4) value) _ _ hslots' hfirst
      refine ⟨hstopped, k + 1, Nat.succ_le_succ hk, hmemory, fun j hj => ?_⟩
      cases j with
      | zero => exact iff_of_true ⟨hprotects, fun k hk => absurd hk (Nat.not_lt_zero k)⟩ (Nat.zero_lt_succ k)
      | succ j =>
        rw [Nat.succ_lt_succ_iff, ← hwords j (Nat.lt_of_succ_lt_succ hj)]
        constructor
        · rintro ⟨hword, hbefore⟩
          exact ⟨hword, fun i hi => hbefore (i + 1) (Nat.succ_lt_succ hi)⟩
        · rintro ⟨hword, hbefore⟩
          refine ⟨hword, fun i hi => ?_⟩
          cases i with
          | zero => exact hstores
          | succ i => exact hbefore i (Nat.lt_of_succ_lt_succ hi)

/-! ## Reads of the display -/

variable {ebp : Word} {n index : ℕ}

theorem readDisplay_of_range (hrange : ∀ i < n, 4 * (index + i) ≤ ebp.toNat ∧
      arena.isGuestRangeReadable (displaySlot ebp (index + i)) 4 = true) :
    readDisplay arena memory ebp n index =
      some ((List.range n).map fun i =>
        (displaySlot ebp (index + i), memory.getWord (displaySlot ebp (index + i)))) := by
  induction n generalizing index with
  | zero => rfl
  | succ n ih =>
    obtain ⟨habove, hfirst⟩ := hrange 0 (Nat.zero_lt_succ n)
    have hslot : ebp - BitVec.ofNat 32 (index * 4) = displaySlot ebp index := by rw [mul_comm, displaySlot]
    have hlater : ∀ i < n, 4 * (index + 1 + i) ≤ ebp.toNat ∧
        arena.isGuestRangeReadable (displaySlot ebp (index + 1 + i)) 4 = true := by
      intro i hi
      rw [show index + 1 + i = index + (i + 1) by omega]
      exact hrange (i + 1) (Nat.succ_lt_succ hi)
    rw [add_zero] at hfirst
    rw [readDisplay, if_neg (by omega), hslot, GuestArena.readGuestUInt32, if_pos hfirst, ih hlater]
    dsimp only
    rw [Option.map_some, List.range_succ_eq_map, List.map_cons, List.map_map]
    congr 3
    funext i
    rw [show index + 1 + i = index + (i + 1) by omega]
    rfl

theorem readDisplay_range {display : List (Word × Word)} (h : readDisplay arena memory ebp n index = some display) :
    ∀ i < n, 4 * (index + i) ≤ ebp.toNat ∧ arena.isGuestRangeReadable (displaySlot ebp (index + i)) 4 = true := by
  induction n generalizing index display with
  | zero => exact fun i hi => absurd hi (Nat.not_lt_zero i)
  | succ n ih =>
    have hslot : ebp - BitVec.ofNat 32 (index * 4) = displaySlot ebp index := by rw [mul_comm, displaySlot]
    rw [readDisplay, hslot] at h
    split_ifs at h with habove
    rw [GuestArena.readGuestUInt32] at h
    split_ifs at h with hfirst
    obtain ⟨rest, hrest, -⟩ := Option.map_eq_some_iff.mp h
    intro i hi
    cases i with
    | zero => exact ⟨by omega, hfirst⟩
    | succ i =>
      rw [show index + (i + 1) = index + 1 + i by omega]
      exact ih hrest i (Nat.lt_of_succ_lt_succ hi)

/-! ## The words of the frame -/

/-- The frame as the handler writes it. -/
def frameWords (memory : DataMemory) (esp ebp : Word) (level : ℕ) : List Word :=
  (List.range (enterCount level)).map (frameWord memory esp ebp level)

variable {esp : Word} {level : ℕ}

theorem frameWords_eq : frameWords memory esp ebp level =
    (List.range (level - 1 + 1)).map (savedValue memory ebp) ++ if level = 0 then [] else [esp - 4] := by
  cases level with
  | zero => rfl
  | succ n =>
    have hsaved : (List.range (n + 1)).map (frameWord memory esp ebp (n + 1)) =
        (List.range (n + 1)).map (savedValue memory ebp) := by
      refine List.map_congr_left fun j hj => if_neg ?_
      have := List.mem_range.mp hj
      omega
    have hcount : enterCount (n + 1) = n + 1 + 1 := rfl
    rw [frameWords, hcount, FrameState.range_map_succ, hsaved, frameWord, if_pos ⟨by omega, rfl⟩, if_neg (by omega)]
    rfl

/-- The display that has been read, between EBP and the frame pointer. -/
theorem frameWords_display :
    (ebp :: ((List.range (level - 1)).map fun i =>
        (displaySlot ebp (1 + i), memory.getWord (displaySlot ebp (1 + i)))).map Prod.snd ++
      if level ≠ 0 then [esp - 4] else []) = frameWords memory esp ebp level := by
  rw [frameWords_eq, List.map_map, List.range_succ_eq_map, List.map_cons, List.map_map, ite_not]
  congr 2
  refine List.map_congr_left fun i _ => ?_
  show memory.getWord (displaySlot ebp (1 + i)) = memory.getWord (displaySlot ebp (i + 1))
  rw [add_comm]

/-- ENTER pushes the words of the handler's frame exactly where its pushes do not disturb the display. -/
theorem enterWords_eq_iff (hshort : 4 * enterCount level < 2 ^ 32) :
    enterWords memory esp ebp level = frameWords memory esp ebp level ↔ DisplaySettled memory esp ebp (level - 1) := by
  have hcount : level - 1 + 1 ≤ enterCount level := by
    unfold enterCount
    split_ifs <;> omega
  rw [frameWords_eq, enterWords, ← enterValues_eq_iff (by omega)]
  exact List.append_left_inj _

/-! ## Runs of the handler -/

variable {c : GuestCpuContext}

theorem half_of_bytes (low high : Byte) : low.setWidth 16 ||| high.setWidth 16 <<< 8 = high ++ low := by
  apply BitVec.eq_of_getLsbD_eq
  intro i hi
  rw [BitVec.getLsbD_or, BitVec.getLsbD_shiftLeft, BitVec.getLsbD_setWidth, BitVec.getLsbD_setWidth,
    BitVec.getLsbD_append]
  by_cases hlow : i < 8
  · simp [hlow, hi]
  · have habove : low.getLsbD i = false := BitVec.getLsbD_of_ge low i (by omega)
    have hshifted : i - 8 < 16 := by omega
    simp [hlow, hi, habove, hshifted]

theorem level_of_byte (b : Byte) : (b &&& 0x1F).toNat = b.toNat % 32 := by
  rw [BitVec.toNat_and]
  exact Nat.and_two_pow_sub_one_eq_mod b.toNat 5

/-- The handler behind the checks of the opcode and of the frame. -/
theorem handleEnterInstruction_eq : handleEnterInstruction arena memory host c =
    let refused : EnterOutcome := { handled := false, context := c, memory := memory }
    let frameBytes := 4 * enterCount (enterLevel memory c)
    if !arena.isGuestRangeReadable c.eip 4 ∨ memory c.eip ≠ 0xC8 then refused
    else if c.esp.toNat < frameBytes then refused
    else if !arena.isGuestRangeReadable (c.esp - BitVec.ofNat 32 frameBytes) frameBytes then refused
    else
      match readDisplay arena memory c.ebp (enterLevel memory c - 1) 1 with
      | none => refused
      | some display =>
        let frame := writeFrame arena host
          (c.ebp :: display.map Prod.snd ++ if enterLevel memory c ≠ 0 then [c.esp - 4] else []) c.esp memory
        { handled := frame.written
          context :=
            if !frame.written then c
            else
              ((c.writeRegister32 5 (c.esp - 4)).writeRegister32 4
                (frame.destination - (enterAllocation memory c).setWidth 32)).skip 4
          memory := frame.memory
          reads := display.map Prod.fst
          writes := frame.writes } := by
  have hopcode : c.eip + BitVec.ofNat 32 0 = c.eip := add_zero c.eip
  have hlevel : (memory (c.eip + BitVec.ofNat 32 3) &&& 0x1F).toNat = enterLevel memory c := level_of_byte _
  have hallocation : (memory (c.eip + BitVec.ofNat 32 1)).setWidth 16 |||
      (memory (c.eip + BitVec.ofNat 32 2)).setWidth 16 <<< 8 = enterAllocation memory c := half_of_bytes _ _
  have hbytes : (if enterLevel memory c = 0 then 1 else enterLevel memory c + 1) * 4 =
      4 * enterCount (enterLevel memory c) := mul_comm _ _
  unfold handleEnterInstruction
  simp only [hopcode, hlevel, hallocation, hbytes]

theorem handleEnterInstruction_of_inRange (h : EnterInRange arena memory c) :
    handleEnterInstruction arena memory host c =
      let frame := writeFrame arena host (frameWords memory c.esp c.ebp (enterLevel memory c)) c.esp memory
      { handled := frame.written
        context :=
          if !frame.written then c
          else
            ((c.writeRegister32 5 (c.esp - 4)).writeRegister32 4
              (frame.destination - (enterAllocation memory c).setWidth 32)).skip 4
        memory := frame.memory
        reads := (List.range (enterLevel memory c - 1)).map fun i => displaySlot c.ebp (i + 1)
        writes := frame.writes } := by
  have hdisplay := @readDisplay_of_range arena memory c.ebp (enterLevel memory c - 1) 1
    fun i hi => h.display (1 + i) (by omega) (by omega)
  have hreads : ((List.range (enterLevel memory c - 1)).map fun i =>
      (displaySlot c.ebp (1 + i), memory.getWord (displaySlot c.ebp (1 + i)))).map Prod.fst =
      (List.range (enterLevel memory c - 1)).map fun i => displaySlot c.ebp (i + 1) := by
    rw [List.map_map]
    refine List.map_congr_left fun i _ => ?_
    show displaySlot c.ebp (1 + i) = _
    rw [add_comm]
  have hopcode : ¬((!arena.isGuestRangeReadable c.eip 4) = true ∨ memory c.eip ≠ 0xC8) := by
    rw [h.readable, h.opcode]
    decide
  rw [handleEnterInstruction_eq]
  dsimp only
  rw [if_neg hopcode, if_neg (Nat.not_lt.mpr h.above), h.frame, if_neg (by decide), hdisplay]
  dsimp only
  rw [frameWords_display, hreads]

theorem handleEnterInstruction_of_not (h : ¬EnterInRange arena memory c) :
    handleEnterInstruction arena memory host c = { handled := false, context := c, memory := memory } := by
  rw [handleEnterInstruction_eq]
  dsimp only
  by_cases hopcode : (!arena.isGuestRangeReadable c.eip 4) = true ∨ memory c.eip ≠ 0xC8
  · exact if_pos hopcode
  rw [if_neg hopcode]
  by_cases habove : c.esp.toNat < 4 * enterCount (enterLevel memory c)
  · exact if_pos habove
  rw [if_neg habove]
  cases hframe : arena.isGuestRangeReadable (c.esp - BitVec.ofNat 32 (4 * enterCount (enterLevel memory c)))
      (4 * enterCount (enterLevel memory c)) with
  | false => rfl
  | true =>
    cases hdisplay : readDisplay arena memory c.ebp (enterLevel memory c - 1) 1 with
    | none => rfl
    | some display =>
      obtain ⟨hreadable, hbyte⟩ := not_or.mp hopcode
      refine absurd ⟨by simpa using hreadable, of_not_not hbyte, Nat.not_lt.mp habove, hframe, ?_⟩ h
      intro i hfirst hlast
      have hslot := readDisplay_range hdisplay (i - 1) (by omega)
      rwa [Nat.add_sub_cancel' hfirst] at hslot

/-- The slots of a frame in range. -/
theorem EnterInRange.slots (h : EnterInRange arena memory c) :
    ∀ j < enterCount (enterLevel memory c), arena.isGuestRangeReadable (pushSlot c.esp j) 4 = true := by
  intro j hj
  have habove := h.above
  have hframe := h.frame
  have hbounds := GuestArena.isGuestRangeReadable_bounds hframe
  have hesp := c.esp.isLt
  have hdestination : (c.esp - BitVec.ofNat 32 (4 * enterCount (enterLevel memory c))).toNat =
      c.esp.toNat - 4 * enterCount (enterLevel memory c) := by
    rw [BitVec.toNat_sub, BitVec.toNat_ofNat]
    omega
  have hslot : (pushSlot c.esp j).toNat = c.esp.toNat - 4 * (j + 1) := by
    rw [pushSlot, BitVec.toNat_sub, BitVec.toNat_ofNat]
    omega
  have hnonzero : pushSlot c.esp j ≠ 0 := by
    intro hzero
    rw [hzero] at hslot
    have : kDosLowMemorySize = 0x10000 := rfl
    have : (0 : Word).toNat = 0 := rfl
    omega
  simp only [GuestArena.isGuestRangeReadable, decide_eq_true_eq, BitVec.le_def] at hframe ⊢
  rw [hdestination] at hframe
  rw [hslot]
  exact ⟨hnonzero, by decide, by omega, by omega⟩

theorem enterCount_le (memory : DataMemory) (c : GuestCpuContext) : enterCount (enterLevel memory c) ≤ 32 := by
  have hlevel : enterLevel memory c < 32 := Nat.mod_lt _ (by decide)
  unfold enterCount
  split_ifs <;> omega

theorem frameWords_length : (frameWords memory esp ebp level).length = enterCount level := by
  rw [frameWords, List.length_map, List.length_range]

theorem handled_of_stores (h : EnterInRange arena memory c) (hhost : StoresFrame host (enterLevel memory c)) :
    handleEnterInstruction arena memory host c =
      { handled := true
        context :=
          ((c.writeRegister32 5 (c.esp - 4)).writeRegister32 4
            (c.esp - BitVec.ofNat 32 (4 * enterCount (enterLevel memory c)) -
              (enterAllocation memory c).setWidth 32)).skip 4
        memory := pushWords memory c.esp (frameWords memory c.esp c.ebp (enterLevel memory c))
        reads := (List.range (enterLevel memory c - 1)).map fun i => displaySlot c.ebp (i + 1)
        writes := (List.range (enterCount (enterLevel memory c))).map (pushSlot c.esp) } := by
  have hframe := @writeFrame_written arena memory host (frameWords memory c.esp c.ebp (enterLevel memory c)) c.esp
  rw [frameWords_length] at hframe
  rw [handleEnterInstruction_of_inRange h, hframe h.slots hhost]
  rfl

/-- With all that the host stores, the handler is right in a flat stack whose display is not disturbed. -/
theorem enterCorrect_of_stores (ss : Word) (h : EnterInRange arena memory c)
    (hhost : StoresFrame host (enterLevel memory c)) :
    EnterCorrect arena memory ss host c ↔
      ss = 0 ∧ DisplaySettled memory c.esp c.ebp (enterLevel memory c - 1) := by
  have hcount := enterCount_le memory c
  obtain ⟨hesp, hreads, hwrites⟩ := FrameState.enter_places ss { esp := c.esp, ebp := c.ebp, memory := memory }
    (enterAllocation memory c) (enterLevel memory c)
  have hmemory := FrameState.enter_memory { esp := c.esp, ebp := c.ebp, memory := memory }
    (enterAllocation memory c) (enterLevel memory c)
  rw [List.nil_append] at hreads hwrites
  rw [← enterWords_eq_iff (by omega)]
  unfold EnterCorrect enterFrame
  dsimp only
  rw [handled_of_stores h hhost, if_pos rfl]
  dsimp only
  rw [hreads, hwrites]
  constructor
  · rintro ⟨-, hslots, hsame, -⟩
    -- the first word is pushed in any frame
    have hfirst : pushSlot c.esp 0 = ss + pushSlot c.esp 0 := by
      refine List.map_inj_left.mp hslots 0 (List.mem_range.mpr ?_)
      unfold enterCount
      split_ifs <;> omega
    obtain rfl : ss = 0 := right_eq_add.mp hfirst
    have hlength : (frameWords memory c.esp c.ebp (enterLevel memory c)).length =
        (enterWords memory c.esp c.ebp (enterLevel memory c)).length := by
      rw [frameWords_length, enterWords_length]
    rw [hmemory, pushWords_inj hlength (by rw [frameWords_length]; omega)] at hsame
    exact ⟨rfl, hsame.symm⟩
  · rintro ⟨rfl, hsame⟩
    refine ⟨?_, ?_, ?_, ?_⟩
    · exact List.map_congr_left fun i _ => (zero_add _).symm
    · exact List.map_congr_left fun j _ => (zero_add _).symm
    · rw [hmemory, hsame]
    · rw [hesp]
      rfl

/-- Where the host fails, the handler leaves all as it was if what it got to store was there. -/
theorem enterCorrect_of_fails (ss : Word) (h : EnterInRange arena memory c)
    (hhost : ¬StoresFrame host (enterLevel memory c)) :
    EnterCorrect arena memory ss host c ↔ ∀ j < enterCount (enterLevel memory c), StoresWord host j →
      memory.getWord (pushSlot c.esp j) = frameWord memory c.esp c.ebp (enterLevel memory c) j := by
  have hcount := enterCount_le memory c
  have hframe := @writeFrame_stopped arena memory host (frameWords memory c.esp c.ebp (enterLevel memory c)) c.esp
  rw [frameWords_length] at hframe
  obtain ⟨hstopped, k, hk, hmemory, hwords⟩ := hframe h.slots hhost
  have htake : ((frameWords memory c.esp c.ebp (enterLevel memory c)).take k).length = k := by
    rw [List.length_take, frameWords_length, min_eq_left hk]
  have hcorrect : EnterCorrect arena memory ss host c ↔
      pushWords memory c.esp ((frameWords memory c.esp c.ebp (enterLevel memory c)).take k) = memory := by
    unfold EnterCorrect
    rw [handleEnterInstruction_of_inRange h]
    dsimp only
    rw [hstopped, hmemory, if_neg (by decide)]
    exact and_iff_right rfl
  rw [hcorrect, pushWords_eq_self_iff (by omega)]
  constructor
  · intro hsame j hj hword
    have hbefore := (hwords j hj).mp hword
    rw [hsame j (by omega), List.getElem_take]
    simp [frameWords]
  · intro hsame j hj
    rw [htake] at hj
    rw [hsame j (by omega) ((hwords j (by omega)).mpr hj), List.getElem_take]
    simp [frameWords]

/-- When the handler is right: nothing is to be done, or the host stores the frame into a flat stack and the pushes do
not disturb the display, or the host fails and what it got to store was there. -/
def EnterSettled (arena : GuestArena) (memory : DataMemory) (ss : Word) (host : ℕ → HostOutcomes)
    (c : GuestCpuContext) : Prop :=
  EnterInRange arena memory c →
    (StoresFrame host (enterLevel memory c) → ss = 0 ∧ DisplaySettled memory c.esp c.ebp (enterLevel memory c - 1)) ∧
    (¬StoresFrame host (enterLevel memory c) → ∀ j < enterCount (enterLevel memory c), StoresWord host j →
      memory.getWord (pushSlot c.esp j) = frameWord memory c.esp c.ebp (enterLevel memory c) j)

theorem enterCorrect_iff (ss : Word) : EnterCorrect arena memory ss host c ↔ EnterSettled arena memory ss host c := by
  by_cases h : EnterInRange arena memory c
  · by_cases hhost : StoresFrame host (enterLevel memory c)
    · rw [enterCorrect_of_stores ss h hhost]
      exact ⟨fun hsettled _ => ⟨fun _ => hsettled, fun hfails => absurd hhost hfails⟩,
        fun hsettled => (hsettled h).1 hhost⟩
    · rw [enterCorrect_of_fails ss h hhost]
      exact ⟨fun hsame _ => ⟨fun hstores => absurd hstores hhost, fun _ => hsame⟩, fun hsettled => (hsettled h).2 hhost⟩
  · refine iff_of_true ?_ fun hrange => absurd hrange h
    unfold EnterCorrect
    rw [handleEnterInstruction_of_not h]
    exact ⟨rfl, rfl⟩

end

end Repiu.Engine
