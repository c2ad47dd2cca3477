import Repiu.Engine.EmulatedFlags
import Repiu.Engine.GuestMemory
import Repiu.Engine.SelectorTranslation

/-!
# Repeated moves

The emulation of `rep movsb` and `rep movsd` (`HandleRepMovsInstruction`), which copies through a
buffer or, into DOS low memory, byte by byte, against the instruction that moves one element after
the other.
-/

namespace Repiu.Engine

open X86

/-! ## The thread -/

/-- How the calls of the host and of the code cache go in a move: whether the source can be read,
whether the target can be made writable and be protected again, and whether the write is noted. -/
structure HostOutcomes where
  readCompletes : Bool
  protects : Bool
  restores : Bool
  notes : Bool

/-- The part of `ThreadContext` that a move looks at. -/
structure MoveThread where
  arena : GuestArena
  selectorTable : SelectorTable
  guestDs : BitVec 16
  guestEs : BitVec 16
  host : HostOutcomes

variable (thread : MoveThread)

/-- `ResolveSegmentLinearRange`; a range is writable where it is readable. -/
def resolveSegmentLinearRange (selector : BitVec 16) (offset : Word) (byteCount : ℕ) : Option Word :=
  let translated :=
    (translateSelectorOffset thread.selectorTable selector offset (BitVec.ofNat 32 byteCount)).getD offset
  if thread.arena.isGuestRangeReadable translated byteCount then some translated
  else if thread.arena.isGuestRangeReadable offset byteCount then some offset
  else none

/-! ## Copying -/

/-- `WriteGuestBytes`: whether it says that it wrote, and the memory behind it. -/
def writeGuestBytes (memory : DataMemory) (destination : Word) (source : ℕ → Byte) (byteCount : ℕ) :
    Bool × DataMemory :=
  if !thread.arena.isGuestRangeReadable destination byteCount then (false, memory)
  else if !thread.host.protects then (false, memory)
  else
    let written : DataMemory := fun x =>
      if (x - destination).toNat < byteCount then source (x - destination).toNat else memory x
    if !thread.host.restores then (false, written) else (thread.host.notes, written)

/-- `CopyHostMemoryWithoutVehRecursion`, for a range that is not empty. -/
def copyHostMemoryWithoutVehRecursion (memory : DataMemory) (destination source : Word) (byteCount : ℕ) :
    Bool × DataMemory :=
  if !thread.host.readCompletes then (false, memory)
  else
    let temporary (k : ℕ) : Byte := memory (source + BitVec.ofNat 32 k)
    writeGuestBytes thread memory destination temporary byteCount

/-- The loop into low memory, for the bytes that are left from an index on. -/
def copyToLowMemory (destination source : Word) : ℕ → ℕ → DataMemory → Bool × DataMemory
  | 0, _, memory => (true, memory)
  | n + 1, index, memory =>
    let byte := memory (source + BitVec.ofNat 32 index)
    match thread.arena.writeDosLowMemory memory (destination + BitVec.ofNat 32 index) (byte.setWidth 32) 1 with
    | none => (false, memory)
    | some memory' => copyToLowMemory destination source n (index + 1) memory'

/-! ## The handler -/

/-- Where a move takes place: its ranges, and whether the target is in low memory. -/
structure MovePlace where
  source : Word
  destination : Word
  destinationIsLowMemory : Bool
deriving DecidableEq

/-- The ranges of a move that is not empty. -/
def placeMove (c : GuestCpuContext) (byteCount : ℕ) : Option MovePlace :=
  let source :=
    if c.esi.toNat + byteCount ≤ kDosLowMemorySize then some c.esi
    else resolveSegmentLinearRange thread thread.guestDs c.esi byteCount
  match source with
  | none => none
  | some source =>
    let resolved :=
      (resolveSegmentLinearRange thread thread.guestEs c.edi byteCount).map fun destination =>
        MovePlace.mk source destination false
    if c.edi.toNat + byteCount ≤ kDosLowMemorySize then some ⟨source, c.edi, true⟩
    else
      match translateSelectorOffset thread.selectorTable thread.guestEs c.edi (BitVec.ofNat 32 byteCount) with
      | none => resolved
      | some destination =>
        if destination.toNat < kDosLowMemorySize ∧ destination.toNat + byteCount ≤ kDosLowMemorySize then
          some ⟨source, destination, true⟩
        else resolved

/-- The bytes of an element. -/
def moveWidth (instruction : ℕ → Byte) : ℕ := if instruction 1 = 0xA5 then 4 else 1

/-- The registers behind a move. -/
def GuestCpuContext.moved (c : GuestCpuContext) (byteCount : ℕ) : GuestCpuContext :=
  let c := c.writeRegister32 6 (c.esi + BitVec.ofNat 32 byteCount)
  let c := c.writeRegister32 7 (c.edi + BitVec.ofNat 32 byteCount)
  let c := c.writeRegister32 1 0
  c.skip 2

/-- Whether `HandleRepMovsInstruction` looks at an instruction: a repeated move, upwards. -/
def acceptsRepMovs (instruction : ℕ → Byte) (c : GuestCpuContext) : Bool :=
  (instruction 0 = 0xF2 ∨ instruction 0 = 0xF3) ∧ (instruction 1 = 0xA4 ∨ instruction 1 = 0xA5) ∧
    c.eflags &&& 0x400 = 0

/-- `HandleRepMovsInstruction`. -/
def handleRepMovsInstruction (instruction : ℕ → Byte) (memory : DataMemory) (c : GuestCpuContext) :
    Bool × GuestCpuContext × DataMemory :=
  if !acceptsRepMovs instruction c then (false, c, memory)
  else
    let byteCount := c.ecx.toNat * moveWidth instruction
    if 0xFFFFFFFF < byteCount then (false, c, memory)
    else if byteCount = 0 then (true, c.moved byteCount, memory)
    else
      match placeMove thread c byteCount with
      | none => (false, c, memory)
      | some place =>
        let (done, memory') :=
          if place.destinationIsLowMemory then
            copyToLowMemory thread place.destination place.source byteCount 0 memory
          else copyHostMemoryWithoutVehRecursion thread memory place.destination place.source byteCount
        if done then (true, c.moved byteCount, memory') else (false, c, memory')

/-! ## The instruction -/

/-- The instruction that is emulated. -/
def repMovs (instruction : ℕ → Byte) : StringInsn where
  operation := .movs
  width := moveWidth instruction
  repeated := .rep
  length := 2
  width_eq := by unfold moveWidth; split_ifs <;> decide

/-- Where a segment begins; one that the table does not know begins at zero. -/
def segmentBase (selector : BitVec 16) : Word :=
  ((findDescriptor thread.selectorTable selector).map fun descriptor => descriptor.base).getD 0

/-- The data segments of the thread. -/
def segmentBases : SegmentBases where
  ds := segmentBase thread thread.guestDs
  es := segmentBase thread thread.guestEs

/-- The handler does what the instruction does: on every memory, where it returns true it leaves the
state to which the instruction leads, and where it returns false it leaves the memory as it was. -/
def MovesAsInstruction (instruction : ℕ → Byte) (c : GuestCpuContext) : Prop :=
  ∀ (memory memory' : DataMemory) (handled : Bool) (c' : GuestCpuContext),
    handleRepMovsInstruction thread instruction memory c = (handled, c', memory') →
      (handled = true → (repMovs instruction).Finishes (segmentBases thread)
        ⟨c.eip, c.registers, c.eflags, memory⟩ ⟨c'.eip, c'.registers, c'.eflags, memory'⟩) ∧
      (handled = false → memory' = memory)

/-- The ranges are those of the segments and no element is written before it is read, or nothing is
moved away, neither where the handler moves nor where the instruction does. -/
def PlacedAsInstruction (place : MovePlace) (c : GuestCpuContext) (hazard : Prop) : Prop :=
  let bases := segmentBases thread
  (place.destination = bases.es + c.edi ∧ place.source = bases.ds + c.esi ∧ ¬hazard) ∨
    (place.source = place.destination ∧ bases.ds + c.esi = bases.es + c.edi)

/-- When the handler does what the instruction does.  It may refuse.  Byte by byte into low memory, no
byte may be written before it is read within its element; through the buffer, no element may, and if
the target cannot be protected again or the write is not noted, nothing may be moved away. -/
def MoveIsFaithful (instruction : ℕ → Byte) (c : GuestCpuContext) : Prop :=
  let width := moveWidth instruction
  let byteCount := c.ecx.toNat * width
  acceptsRepMovs instruction c = true → byteCount ≤ 0xFFFFFFFF → byteCount ≠ 0 →
    ∀ place, placeMove thread c byteCount = some place →
      if place.destinationIsLowMemory then
        thread.arena.lowValid = true →
          PlacedAsInstruction thread place c (Overtakes place.destination place.source 1 width)
      else
        thread.host.readCompletes = true → thread.host.protects = true →
          if thread.host.restores ∧ thread.host.notes then
            PlacedAsInstruction thread place c (Overtakes place.destination place.source width byteCount)
          else place.source = place.destination

/-! ## Copies as maps of addresses -/

variable {thread} {memory : DataMemory} {destination source : Word} {n : ℕ}

theorem isDosLowMemoryRangeValid_of_le {index : ℕ} (h : destination.toNat + (index + 1) ≤ kDosLowMemorySize) :
    GuestArena.isDosLowMemoryRangeValid (destination + BitVec.ofNat 32 index) 1 = true := by
  have hindex : (destination + BitVec.ofNat 32 index).toNat = destination.toNat + index := by
    unfold kDosLowMemorySize at h
    rw [BitVec.toNat_add, BitVec.toNat_ofNat, Nat.mod_eq_of_lt (show index < 2 ^ 32 by omega),
      Nat.mod_eq_of_lt (by omega)]
  unfold GuestArena.isDosLowMemoryRangeValid
  rw [hindex, decide_eq_true_eq]
  omega

/-- A byte that is written to low memory is moved. -/
theorem writeDosLowMemory_byte (hvalid : thread.arena.lowValid = true)
    (hrange : GuestArena.isDosLowMemoryRangeValid destination 1 = true) :
    thread.arena.writeDosLowMemory memory destination ((memory source).setWidth 32) 1 =
      some (memory ∘ moveMap destination source 1) := by
  unfold GuestArena.writeDosLowMemory
  rw [if_pos ⟨hvalid, by decide, hrange⟩]
  congr 1
  funext x
  unfold moveMap
  by_cases hx : (x - destination).toNat < 1
  · have hzero : x - destination = 0 := BitVec.eq_of_toNat_eq (by simpa using hx)
    rw [if_pos hx, Function.comp, if_pos hx, hzero, add_zero]
    show (((memory source).setWidth 32 >>> 0).setWidth 8 : Byte) = _
    rw [BitVec.ushiftRight_zero, setWidth_wide (by decide)]
  · rw [if_neg hx, Function.comp, if_neg hx]

/-- The loop into low memory moves bytes one behind the other. -/
theorem copyToLowMemory_eq (hvalid : thread.arena.lowValid = true) {index : ℕ}
    (hrange : destination.toNat + (index + n) ≤ kDosLowMemorySize) :
    copyToLowMemory thread destination source n index memory =
      (true, memory ∘ elementsMap 1 n (destination + BitVec.ofNat 32 index) (source + BitVec.ofNat 32 index)) := by
  induction n generalizing index memory with
  | zero => rfl
  | succ n ih =>
    have hbyte : GuestArena.isDosLowMemoryRangeValid (destination + BitVec.ofNat 32 index) 1 = true :=
      isDosLowMemoryRangeValid_of_le (by omega)
    rw [copyToLowMemory, writeDosLowMemory_byte hvalid hbyte]
    dsimp only
    rw [ih (by omega), ← offset_add, ← offset_add]
    rfl

theorem copyToLowMemory_invalid (hvalid : thread.arena.lowValid ≠ true) (hn : n ≠ 0) :
    copyToLowMemory thread destination source n 0 memory = (false, memory) := by
  obtain ⟨n, rfl⟩ : ∃ n', n = n' + 1 := ⟨n - 1, by omega⟩
  rw [copyToLowMemory]
  unfold GuestArena.writeDosLowMemory
  rw [if_neg fun h => hvalid h.1]

/-- The copy through the buffer moves all bytes at once. -/
theorem copyHostMemory_eq (hrange : thread.arena.isGuestRangeReadable destination n = true) :
    copyHostMemoryWithoutVehRecursion thread memory destination source n =
      if thread.host.readCompletes ∧ thread.host.protects then
        (thread.host.restores && thread.host.notes, memory ∘ moveMap destination source n)
      else (false, memory) := by
  have hwritten : (fun x => if (x - destination).toNat < n then
      memory (source + BitVec.ofNat 32 (x - destination).toNat) else memory x) =
        memory ∘ moveMap destination source n := by
    funext x
    rw [BitVec.ofNat_toNat, BitVec.setWidth_eq, Function.comp, moveMap, apply_ite memory]
  unfold copyHostMemoryWithoutVehRecursion writeGuestBytes
  dsimp only
  rw [hwritten, hrange]
  cases thread.host.readCompletes <;> cases thread.host.protects <;> cases thread.host.restores <;> rfl

/-- The target of a move is in low memory or in the arena. -/
theorem placeMove_destination {c : GuestCpuContext} {place : MovePlace} (h : placeMove thread c n = some place) :
    if place.destinationIsLowMemory then place.destination.toNat + n ≤ kDosLowMemorySize
    else thread.arena.isGuestRangeReadable place.destination n = true := by
  have hresolved : ∀ {s : Word}, (resolveSegmentLinearRange thread thread.guestEs c.edi n).map
      (fun destination => MovePlace.mk s destination false) = some place →
        if place.destinationIsLowMemory then place.destination.toNat + n ≤ kDosLowMemorySize
        else thread.arena.isGuestRangeReadable place.destination n = true := by
    intro s hmap
    obtain ⟨d, hd, rfl⟩ := Option.map_eq_some_iff.mp hmap
    unfold resolveSegmentLinearRange at hd
    dsimp only at hd
    split_ifs at hd with htranslated hdirect
    · rw [← Option.some.inj hd]
      exact htranslated
    · rw [← Option.some.inj hd]
      exact hdirect
  unfold placeMove at h
  dsimp only at h
  split at h
  · cases h
  · split_ifs at h with hlow
    · rw [← Option.some.inj h]
      exact hlow
    · split at h
      · exact hresolved h
      · split_ifs at h with htranslated
        · rw [← Option.some.inj h]
          exact htranslated.2
        · exact hresolved h

/-! ## The handler and the instruction -/

variable {instruction : ℕ → Byte} {c : GuestCpuContext}

theorem moveWidth_pos (instruction : ℕ → Byte) : 0 < moveWidth instruction := by
  unfold moveWidth
  split_ifs <;> decide

/-- An accepted instruction goes upwards. -/
theorem direction_of_accepts (h : acceptsRepMovs instruction c = true) : c.eflags.getLsbD 10 = false := by
  have hbit := and_bit_ne_zero c.eflags (show 10 < 32 by decide) (show (0x400 : Word) = _ by decide)
  unfold acceptsRepMovs at h
  rw [decide_eq_true_eq] at h
  by_contra hdown
  exact hbit.mpr (by simpa using hdown) h.2.2

/-- The instruction leads to the registers of the handler, and to the memory in which its elements
are moved. -/
theorem finishes_moved_iff (haccepts : acceptsRepMovs instruction c = true) (memory memory' : DataMemory) :
    (repMovs instruction).Finishes (segmentBases thread) ⟨c.eip, c.registers, c.eflags, memory⟩
        ⟨(c.moved (c.ecx.toNat * moveWidth instruction)).eip,
          (c.moved (c.ecx.toNat * moveWidth instruction)).registers,
          (c.moved (c.ecx.toNat * moveWidth instruction)).eflags, memory'⟩ ↔
      memory' = memory ∘ elementsMap (moveWidth instruction) c.ecx.toNat ((segmentBases thread).es + c.edi)
        ((segmentBases thread).ds + c.esi) := by
  have hfinishes : (repMovs instruction).Finishes (segmentBases thread) ⟨c.eip, c.registers, c.eflags, memory⟩
      ((repMovs instruction).movsEnd (segmentBases thread) ⟨c.eip, c.registers, c.eflags, memory⟩) :=
    StringInsn.finishes_movsEnd rfl rfl (direction_of_accepts haccepts)
  have hregisters : (c.moved (c.ecx.toNat * moveWidth instruction)).registers =
      ((repMovs instruction).movsEnd (segmentBases thread) ⟨c.eip, c.registers, c.eflags, memory⟩).registers := by
    funext r
    fin_cases r <;> rfl
  refine ⟨fun h => ?_, fun h => ?_⟩
  · have hend := h.unique hfinishes
    exact congrArg CodeState.memory hend
  · rw [h, hregisters]
    exact hfinishes

/-- A copy as a map of addresses leaves what the instruction leaves on every memory exactly if its
map is that of the elements. -/
theorem copies_iff (f f' : Word → Word) : (∀ memory : DataMemory, memory ∘ f = memory ∘ f') ↔ f = f' :=
  comp_eq_iff (0 : Byte) 1 (by decide)

theorem placedAsInstruction_low (hn : c.ecx.toNat * moveWidth instruction ≠ 0) {place : MovePlace}
    (hrange : place.destination.toNat + c.ecx.toNat * moveWidth instruction ≤ kDosLowMemorySize) :
    elementsMap 1 (c.ecx.toNat * moveWidth instruction) place.destination place.source =
        elementsMap (moveWidth instruction) c.ecx.toNat ((segmentBases thread).es + c.edi)
          ((segmentBases thread).ds + c.esi) ↔
      PlacedAsInstruction thread place c (Overtakes place.destination place.source 1 (moveWidth instruction)) := by
  unfold kDosLowMemorySize at hrange
  have hk : 0 < c.ecx.toNat := Nat.pos_of_ne_zero fun hzero => hn (by rw [hzero, Nat.zero_mul])
  have hmoves : MovesRange (elementsMap 1 (c.ecx.toNat * moveWidth instruction) place.destination place.source)
      place.destination place.source (c.ecx.toNat * moveWidth instruction * 1) :=
    elementsMap_movesRange (by decide) (by omega) (by omega)
  rw [Nat.mul_one] at hmoves
  apply hmoves.eq_elementsMap_iff (moveWidth_pos instruction) hk (by omega)
  · intro hsame
    rw [hsame]
    exact elementsMap_self (by omega) _
  · exact fun _ => Or.inl (by omega)
  · exact cells_eq_elementsMap_iff hk (by omega)

theorem placedAsInstruction_buffer (hn : c.ecx.toNat * moveWidth instruction ≠ 0)
    (hmax : c.ecx.toNat * moveWidth instruction ≤ 0xFFFFFFFF) {place : MovePlace} :
    moveMap place.destination place.source (c.ecx.toNat * moveWidth instruction) =
        elementsMap (moveWidth instruction) c.ecx.toNat ((segmentBases thread).es + c.edi)
          ((segmentBases thread).ds + c.esi) ↔
      PlacedAsInstruction thread place c
        (Overtakes place.destination place.source (moveWidth instruction) (c.ecx.toNat * moveWidth instruction)) := by
  have hk : 0 < c.ecx.toNat := Nat.pos_of_ne_zero fun hzero => hn (by rw [hzero, Nat.zero_mul])
  apply (moveMap_movesRange (Nat.pos_of_ne_zero hn)).eq_elementsMap_iff (moveWidth_pos instruction) hk (by omega)
  · intro hsame
    rw [hsame]
    exact moveMap_self _ _
  · exact fun hne => Or.inr fun x hx => moveMap_ne hne hx
  · exact moveMap_eq_elementsMap_iff (by omega)

/-- What the handler does with a move it accepts. -/
theorem handleRepMovsInstruction_accepted (thread : MoveThread) (memory : DataMemory)
    (haccepts : acceptsRepMovs instruction c = true) (hmax : c.ecx.toNat * moveWidth instruction ≤ 0xFFFFFFFF) :
    handleRepMovsInstruction thread instruction memory c =
      if c.ecx.toNat * moveWidth instruction = 0 then
        (true, c.moved (c.ecx.toNat * moveWidth instruction), memory)
      else
        match placeMove thread c (c.ecx.toNat * moveWidth instruction) with
        | none => (false, c, memory)
        | some place =>
          let (done, memory') :=
            if place.destinationIsLowMemory then
              copyToLowMemory thread place.destination place.source (c.ecx.toNat * moveWidth instruction) 0 memory
            else
              copyHostMemoryWithoutVehRecursion thread memory place.destination place.source
                (c.ecx.toNat * moveWidth instruction)
          if done then (true, c.moved (c.ecx.toNat * moveWidth instruction), memory') else (false, c, memory') := by
  rw [handleRepMovsInstruction, if_neg (by simpa using haccepts)]
  dsimp only
  rw [if_neg (by omega)]

/-- A handler that refuses. -/
theorem movesAsInstruction_of_refused
    (h : ∀ memory, handleRepMovsInstruction thread instruction memory c = (false, c, memory)) :
    MovesAsInstruction thread instruction c := by
  intro memory memory' handled c' heq
  rw [h, Prod.mk.injEq, Prod.mk.injEq] at heq
  obtain ⟨rfl, rfl, rfl⟩ := heq
  exact ⟨fun hfalse => (Bool.false_ne_true hfalse).elim, fun _ => rfl⟩

/-- A handler that returns true and moves. -/
theorem movesAsInstruction_iff_of_moved (haccepts : acceptsRepMovs instruction c = true) {f : Word → Word}
    (h : ∀ memory, handleRepMovsInstruction thread instruction memory c =
      (true, c.moved (c.ecx.toNat * moveWidth instruction), memory ∘ f)) :
    MovesAsInstruction thread instruction c ↔
      f = elementsMap (moveWidth instruction) c.ecx.toNat ((segmentBases thread).es + c.edi)
        ((segmentBases thread).ds + c.esi) := by
  rw [← copies_iff]
  refine ⟨fun hmoves memory => ?_, fun hsame memory memory' handled c' heq => ?_⟩
  · exact (finishes_moved_iff haccepts memory _).mp ((hmoves memory _ _ _ (h memory)).1 rfl)
  · rw [h, Prod.mk.injEq, Prod.mk.injEq] at heq
    obtain ⟨rfl, rfl, rfl⟩ := heq
    exact ⟨fun _ => (finishes_moved_iff haccepts memory _).mpr (hsame memory),
      fun hfalse => (Bool.false_ne_true hfalse.symm).elim⟩

/-- A handler that returns false although it moves. -/
theorem movesAsInstruction_iff_of_failed {f : Word → Word}
    (h : ∀ memory, handleRepMovsInstruction thread instruction memory c = (false, c, memory ∘ f)) :
    MovesAsInstruction thread instruction c ↔ f = id := by
  rw [← copies_iff]
  refine ⟨fun hmoves memory => (hmoves memory _ _ _ (h memory)).2 rfl, fun hsame memory memory' handled c' heq => ?_⟩
  rw [h, Prod.mk.injEq, Prod.mk.injEq] at heq
  obtain ⟨rfl, rfl, rfl⟩ := heq
  exact ⟨fun hfalse => (Bool.false_ne_true hfalse).elim, fun _ => hsame memory⟩

/-- A move that is not empty changes nothing exactly if it goes nowhere. -/
theorem moveMap_eq_id_iff (hn : 0 < n) : moveMap destination source n = id ↔ source = destination := by
  refine ⟨fun h => ?_, fun h => by rw [h, moveMap_self]⟩
  by_contra hne
  exact moveMap_ne (x := destination) hne (by rwa [sub_self]) (congrFun h destination)

/-- The emulated repeated move does what the instruction does exactly when `MoveIsFaithful` holds. -/
theorem repMovs_faithful_iff (thread : MoveThread) (instruction : ℕ → Byte) (c : GuestCpuContext) :
    MovesAsInstruction thread instruction c ↔ MoveIsFaithful thread instruction c := by
  unfold MoveIsFaithful
  dsimp only
  by_cases haccepts : acceptsRepMovs instruction c = true
  swap
  · refine iff_of_true (movesAsInstruction_of_refused fun memory => ?_) fun h => absurd h haccepts
    rw [handleRepMovsInstruction, if_pos (by simpa using haccepts)]
  by_cases hmax : c.ecx.toNat * moveWidth instruction ≤ 0xFFFFFFFF
  swap
  · refine iff_of_true (movesAsInstruction_of_refused fun memory => ?_) fun _ h => absurd h hmax
    rw [handleRepMovsInstruction, if_neg (by simpa using haccepts)]
    dsimp only
    rw [if_pos (by omega)]
  have hhandler := fun memory => handleRepMovsInstruction_accepted thread memory haccepts hmax
  by_cases hzero : c.ecx.toNat * moveWidth instruction = 0
  · refine iff_of_true ?_ fun _ _ h => absurd hzero h
    rw [movesAsInstruction_iff_of_moved (f := id) haccepts fun memory => by rw [hhandler, if_pos hzero]; rfl]
    have hcount : c.ecx.toNat = 0 := (Nat.mul_eq_zero.mp hzero).resolve_right (moveWidth_pos instruction).ne'
    rw [hcount]
    rfl
  simp only [haccepts, hmax, hzero, ne_eq, not_false_eq_true, forall_true_left]
  simp only [if_neg hzero] at hhandler
  cases hplace : placeMove thread c (c.ecx.toNat * moveWidth instruction) with
  | none =>
    refine iff_of_true (movesAsInstruction_of_refused fun memory => ?_) fun _ h => by cases h
    rw [hhandler, hplace]
  | some place =>
    have hdestination := placeMove_destination hplace
    simp only [Option.some.injEq, forall_eq']
    simp only [hplace] at hhandler
    by_cases hlow : place.destinationIsLowMemory = true
    · rw [if_pos hlow] at hdestination ⊢
      simp only [if_pos hlow] at hhandler
      by_cases hvalid : thread.arena.lowValid = true
      · rw [← placedAsInstruction_low hzero hdestination]
        simp only [hvalid, forall_true_left]
        apply movesAsInstruction_iff_of_moved haccepts
        intro memory
        rw [hhandler, copyToLowMemory_eq hvalid (by omega)]
        show (true, _, memory ∘ elementsMap 1 _ (place.destination + 0) (place.source + 0)) = _
        rw [add_zero, add_zero]
      · refine iff_of_true (movesAsInstruction_of_refused fun memory => ?_) fun h => absurd h hvalid
        rw [hhandler, copyToLowMemory_invalid hvalid hzero]
        rfl
    · rw [if_neg hlow] at hdestination ⊢
      simp only [if_neg hlow, copyHostMemory_eq hdestination] at hhandler
      by_cases hcopies : thread.host.readCompletes = true ∧ thread.host.protects = true
      · simp only [if_pos hcopies] at hhandler
        simp only [hcopies.1, hcopies.2, forall_true_left]
        by_cases hdone : thread.host.restores = true ∧ thread.host.notes = true
        · rw [if_pos hdone, ← placedAsInstruction_buffer hzero hmax]
          apply movesAsInstruction_iff_of_moved haccepts
          intro memory
          rw [hhandler, hdone.1, hdone.2]
          rfl
        · rw [if_neg hdone, ← moveMap_eq_id_iff (Nat.pos_of_ne_zero hzero)]
          apply movesAsInstruction_iff_of_failed
          intro memory
          rw [hhandler, if_neg (by simpa using hdone)]
      · simp only [if_neg hcopies] at hhandler
        refine iff_of_true (movesAsInstruction_of_refused hhandler) fun h1 h2 => absurd ⟨h1, h2⟩ hcopies

/-- A thread without descriptors, on a host where every call succeeds. -/
def sampleMoveThread : MoveThread where
  arena := sampleArena
  selectorTable := { descriptors := [] }
  guestDs := 0
  guestEs := 0
  host := ⟨true, true, true, true⟩

/-- `rep movsb` -/
def sampleRepMovsb (k : ℕ) : Byte := if k = 0 then 0xF3 else 0xA4

/-- Two bytes to fill with the byte before them. -/
def sampleFill : GuestCpuContext where
  registers := fun r => if r = 1 then 2 else if r = 6 then 0x100000 else if r = 7 then 0x100001 else 0
  eip := 0x101000
  eflags := 0x202

/-- Filling bytes with the one before them copies what was there instead. -/
theorem repMovs_fails_fill : ¬∀ (thread : MoveThread) (instruction : ℕ → Byte) (c : GuestCpuContext),
    MovesAsInstruction thread instruction c := by
  intro hall
  have hmoves := hall sampleMoveThread sampleRepMovsb sampleFill
  have hhandler : ∀ memory, handleRepMovsInstruction sampleMoveThread sampleRepMovsb memory sampleFill =
      (true, sampleFill.moved 2, memory ∘ moveMap 0x100001 0x100000 2) := by
    intro memory
    have hplace : placeMove sampleMoveThread sampleFill (sampleFill.ecx.toNat * moveWidth sampleRepMovsb) =
        some ⟨0x100000, 0x100001, false⟩ := by decide
    rw [handleRepMovsInstruction_accepted _ _ (by decide) (by decide), if_neg (by decide), hplace]
    simp only [Bool.false_eq_true, if_false]
    rw [copyHostMemory_eq (by decide)]
    rfl
  rw [movesAsInstruction_iff_of_moved (by decide) hhandler] at hmoves
  have hcell := congrFun hmoves 0x100002
  revert hcell
  decide

end Repiu.Engine
