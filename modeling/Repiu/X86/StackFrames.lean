import Repiu.X86.Execution

/-!
# Pushed words and stack frames

The memory behind a row of pushes, and the frame that ENTER builds, which reads the display of the frame before it
while it pushes.
-/

namespace Repiu.X86

open DataMemory

/-! ## Pushed words -/

/-- Where the word with this number is pushed. -/
def pushSlot (esp : Word) (j : ℕ) : Word := esp - BitVec.ofNat 32 (4 * (j + 1))

/-- The memory behind pushes. -/
def pushWords : DataMemory → Word → List Word → DataMemory
  | memory, _, [] => memory
  | memory, esp, value :: values => pushWords (memory.setWord (esp - 4) value) (esp - 4) values

theorem pushSlot_succ (esp : Word) (j : ℕ) : pushSlot (esp - 4) j = pushSlot esp (j + 1) := by
  have hnext : BitVec.ofNat 32 (4 * (j + 1 + 1)) = BitVec.ofNat 32 (4 * (j + 1)) + 4 := by
    rw [show 4 * (j + 1 + 1) = 4 * (j + 1) + 4 by ring, BitVec.ofNat_add]
    rfl
  unfold pushSlot
  rw [hnext]
  ring

theorem pushSlot_sub_four (esp : Word) (j : ℕ) : pushSlot esp j - 4 = pushSlot esp (j + 1) := by
  rw [← pushSlot_succ]
  unfold pushSlot
  ring

theorem pushWords_append (memory : DataMemory) (esp : Word) (values values' : List Word) :
    pushWords memory esp (values ++ values') =
      pushWords (pushWords memory esp values) (esp - BitVec.ofNat 32 (4 * values.length)) values' := by
  induction values generalizing memory esp with
  | nil =>
    show pushWords memory esp values' = pushWords memory (esp - 0) values'
    rw [sub_zero]
  | cons value values ih =>
    have hlength : BitVec.ofNat 32 (4 * (values.length + 1)) = BitVec.ofNat 32 (4 * values.length) + 4 := by
      rw [show 4 * (values.length + 1) = 4 * values.length + 4 by ring, BitVec.ofNat_add]
      rfl
    rw [List.cons_append, pushWords, ih, pushWords, List.length_cons, hlength]
    congr 1
    ring

theorem pushWords_concat (memory : DataMemory) (esp : Word) (values : List Word) (value : Word) :
    pushWords memory esp (values ++ [value]) =
      (pushWords memory esp values).setWord (pushSlot esp values.length) value := by
  have hslot : esp - BitVec.ofNat 32 (4 * values.length) - 4 = pushSlot esp values.length := by
    rw [pushSlot, mul_add, BitVec.ofNat_add, sub_sub]
    rfl
  rw [pushWords_append, pushWords, pushWords, hslot]

/-- The slots lie apart. -/
theorem pushSlot_apart {esp x : Word} {i j : ℕ} (hij : i < j) (hj : 4 * (j + 1) < 2 ^ 32)
    (h : (x - pushSlot esp i).toNat < 4) : 4 ≤ (x - pushSlot esp j).toNat := by
  unfold pushSlot at h ⊢
  have hi : (BitVec.ofNat 32 (4 * (i + 1))).toNat = 4 * (i + 1) := by
    rw [BitVec.toNat_ofNat, Nat.mod_eq_of_lt (by omega)]
  have hj' : (BitVec.ofNat 32 (4 * (j + 1))).toNat = 4 * (j + 1) := by
    rw [BitVec.toNat_ofNat, Nat.mod_eq_of_lt (by omega)]
  generalize BitVec.ofNat 32 (4 * (i + 1)) = a at h hi
  generalize BitVec.ofNat 32 (4 * (j + 1)) = b at hj' ⊢
  bv_omega

/-- Pushes change nothing outside their slots. -/
theorem pushWords_of_far {memory : DataMemory} {esp x : Word} {values : List Word}
    (h : ∀ j < values.length, 4 ≤ (x - pushSlot esp j).toNat) : pushWords memory esp values x = memory x := by
  induction values generalizing memory esp with
  | nil => rfl
  | cons value values ih =>
    rw [pushWords, ih]
    · exact setWord_of_far memory (h 0 (Nat.zero_lt_succ _))
    · intro j hj
      rw [pushSlot_succ]
      exact h (j + 1) (Nat.succ_lt_succ hj)

/-- A slot holds what was pushed there. -/
theorem pushWords_slot {memory : DataMemory} {esp x : Word} {values : List Word} (hshort : 4 * values.length < 2 ^ 32)
    {j : ℕ} (hj : j < values.length) (hx : (x - pushSlot esp j).toNat < 4) :
    pushWords memory esp values x = (le32 values[j]).getD (x - pushSlot esp j).toNat 0 := by
  induction values generalizing memory esp j with
  | nil => exact absurd hj (Nat.not_lt_zero _)
  | cons value values ih =>
    rw [List.length_cons] at hshort hj
    rw [pushWords]
    cases j with
    | zero =>
      rw [pushWords_of_far]
      · unfold setWord
        exact if_pos hx
      · intro k hk
        rw [pushSlot_succ]
        exact pushSlot_apart (Nat.zero_lt_succ k) (by omega) hx
    | succ j =>
      rw [← pushSlot_succ] at hx ⊢
      rw [ih (by omega) (by omega) hx]
      rfl

/-! ## Words of a memory -/

/-- Words are the same where their bytes are. -/
theorem getWord_eq_iff {memory memory' : DataMemory} {a : Word} :
    memory.getWord a = memory'.getWord a ↔ ∀ x, (x - a).toNat < 4 → memory x = memory' x := by
  constructor
  · intro h x hx
    have hset := congrArg (fun word => setWord memory a word x) h
    rw [setWord_getWord] at hset
    rw [hset]
    have hbyte : ∀ m m' : DataMemory, m.setWord a (memory'.getWord a) x = m'.setWord a (memory'.getWord a) x := by
      intro m m'
      unfold setWord
      rw [if_pos hx, if_pos hx]
    rw [hbyte memory memory', setWord_getWord]
  · intro h
    unfold getWord
    rw [h a (by bv_omega), h (a + 1) (by bv_omega), h (a + 2) (by bv_omega), h (a + 3) (by bv_omega)]

theorem getWord_byte (memory : DataMemory) {a x : Word} (hx : (x - a).toNat < 4) :
    memory x = (le32 (memory.getWord a)).getD (x - a).toNat 0 := by
  have hset := congrFun (setWord_getWord memory a) x
  rw [← hset]
  exact if_pos hx

theorem getWord_of_bytes {memory : DataMemory} {a w : Word}
    (h : ∀ x, (x - a).toNat < 4 → memory x = (le32 w).getD (x - a).toNat 0) : memory.getWord a = w := by
  rw [← getWord_setWord memory a w]
  refine getWord_eq_iff.mpr fun x hx => ?_
  rw [h x hx]
  exact (if_pos hx).symm

theorem getWord_pushWords {memory : DataMemory} {esp : Word} {values : List Word} (hshort : 4 * values.length < 2 ^ 32)
    {j : ℕ} (hj : j < values.length) : (pushWords memory esp values).getWord (pushSlot esp j) = values[j] :=
  getWord_of_bytes fun _ hx => pushWords_slot hshort hj hx

/-- Different words leave different memories. -/
theorem pushWords_inj {memory : DataMemory} {esp : Word} {values values' : List Word}
    (hlength : values.length = values'.length) (hshort : 4 * values.length < 2 ^ 32) :
    pushWords memory esp values = pushWords memory esp values' ↔ values = values' := by
  constructor
  · intro h
    refine List.ext_getElem hlength fun j hj hj' => ?_
    rw [← getWord_pushWords hshort hj, h, getWord_pushWords (by omega) hj']
  · rintro rfl
    rfl

/-- Pushes leave a memory alone where it holds what they push. -/
theorem pushWords_eq_self_iff {memory : DataMemory} {esp : Word} {values : List Word}
    (hshort : 4 * values.length < 2 ^ 32) :
    pushWords memory esp values = memory ↔
      ∀ (j : ℕ) (hj : j < values.length), memory.getWord (pushSlot esp j) = values[j] := by
  constructor
  · intro h j hj
    have hslot : (pushWords memory esp values).getWord (pushSlot esp j) = values[j] := getWord_pushWords hshort hj
    rw [← hslot, h]
  · intro h
    funext x
    by_cases hfar : ∀ j < values.length, 4 ≤ (x - pushSlot esp j).toNat
    · exact pushWords_of_far hfar
    · push Not at hfar
      obtain ⟨j, hj, hx⟩ := hfar
      rw [pushWords_slot hshort hj hx, ← h j hj]
      exact (getWord_byte memory hx).symm

/-! ## ENTER -/

/-- What ENTER works on, with the linear addresses that it has read and written. -/
structure FrameState where
  esp : Word
  ebp : Word
  memory : DataMemory
  reads : List Word := []
  writes : List Word := []

namespace FrameState

variable (ss : Word)

/-- Push a word on the stack in the segment with this base. -/
def push (s : FrameState) (value : Word) : FrameState :=
  { s with
    esp := s.esp - 4
    memory := s.memory.setWord (ss + (s.esp - 4)) value
    writes := s.writes ++ [ss + (s.esp - 4)] }

/-- Copy the next pointer of the display. -/
def copyDisplay (s : FrameState) : FrameState :=
  let s := { s with ebp := s.ebp - 4, reads := s.reads ++ [ss + (s.ebp - 4)] }
  s.push ss (s.memory.getWord (ss + s.ebp))

/-- ENTER with a nesting level. -/
def enter (allocation : BitVec 16) (level : ℕ) (s : FrameState) : FrameState :=
  let pushed := s.push ss s.ebp
  let frame := pushed.esp
  let s := if level = 0 then pushed else ((copyDisplay ss)^[level - 1] pushed).push ss frame
  { s with ebp := frame, esp := s.esp - allocation.setWidth 32 }

end FrameState

/-- Where the display of the old frame has its words, from the first one on. -/
def displaySlot (ebp : Word) (i : ℕ) : Word := ebp - BitVec.ofNat 32 (4 * i)

theorem displaySlot_zero (ebp : Word) : displaySlot ebp 0 = ebp := sub_zero ebp

theorem displaySlot_sub_four (ebp : Word) (i : ℕ) : displaySlot ebp i - 4 = displaySlot ebp (i + 1) := by
  rw [displaySlot, displaySlot, mul_add, BitVec.ofNat_add, sub_sub]
  rfl

/-- The words that ENTER pushes before its frame pointer: it reads each behind the pushes before it. -/
def enterValues (memory : DataMemory) (esp ebp : Word) : ℕ → List Word
  | 0 => [ebp]
  | n + 1 =>
    enterValues memory esp ebp n ++
      [(pushWords memory esp (enterValues memory esp ebp n)).getWord (displaySlot ebp (n + 1))]

/-- A word of the display before anything is pushed; the first one is the old frame pointer. -/
def savedValue (memory : DataMemory) (ebp : Word) (i : ℕ) : Word :=
  if i = 0 then ebp else memory.getWord (displaySlot ebp i)

/-- Where a word of the display lies over a slot that was pushed before it is read, its bytes are already those that
are pushed there. -/
def DisplaySettled (memory : DataMemory) (esp ebp : Word) (n : ℕ) : Prop :=
  ∀ i, 1 ≤ i → i ≤ n → ∀ j < i, ∀ x, (x - displaySlot ebp i).toNat < 4 → (x - pushSlot esp j).toNat < 4 →
    memory x = (le32 (savedValue memory ebp j)).getD (x - pushSlot esp j).toNat 0

section
variable {memory : DataMemory} {esp ebp : Word} {n : ℕ}

@[simp] theorem enterValues_length (memory : DataMemory) (esp ebp : Word) (n : ℕ) :
    (enterValues memory esp ebp n).length = n + 1 := by
  induction n with
  | zero => rfl
  | succ n ih => rw [enterValues, List.length_append, ih, List.length_singleton]

theorem displaySettled_succ : DisplaySettled memory esp ebp (n + 1) ↔
    DisplaySettled memory esp ebp n ∧
      ∀ j < n + 1, ∀ x, (x - displaySlot ebp (n + 1)).toNat < 4 → (x - pushSlot esp j).toNat < 4 →
        memory x = (le32 (savedValue memory ebp j)).getD (x - pushSlot esp j).toNat 0 := by
  constructor
  · intro h
    exact ⟨fun i hfirst hlast => h i hfirst (by omega), h (n + 1) (by omega) le_rfl⟩
  · rintro ⟨hearlier, hlast⟩ i hfirst hi
    rcases Nat.lt_or_ge n i with hn | hn
    · obtain rfl : i = n + 1 := by omega
      exact hlast
    · exact hearlier i hfirst hn

/-- ENTER pushes the display as it was exactly where the pushes do not disturb it. -/
theorem enterValues_eq_iff (hshort : 4 * (n + 1) < 2 ^ 32) :
    enterValues memory esp ebp n = (List.range (n + 1)).map (savedValue memory ebp) ↔
      DisplaySettled memory esp ebp n := by
  induction n with
  | zero =>
    refine iff_of_true rfl fun i hfirst hlast => ?_
    omega
  | succ n ih =>
    rw [enterValues, List.range_succ, List.map_append, List.map_singleton, displaySettled_succ, ← ih (by omega)]
    have hsplit : ∀ (xs ys : List Word) (x y : Word), xs.length = ys.length →
        (xs ++ [x] = ys ++ [y] ↔ xs = ys ∧ x = y) := by
      intro xs ys x y hlength
      constructor
      · intro h
        have := List.append_inj h hlength
        exact ⟨this.1, List.singleton_inj.mp this.2⟩
      · rintro ⟨rfl, rfl⟩
        rfl
    rw [hsplit _ _ _ _ (by simp)]
    refine and_congr_right fun hvalues => ?_
    have hvalue : savedValue memory ebp (n + 1) = memory.getWord (displaySlot ebp (n + 1)) := rfl
    rw [hvalue, getWord_eq_iff, hvalues]
    constructor
    · -- a byte of the display in a slot is read as what was pushed there
      intro h j hj x hdisplay hslot
      rw [← h x hdisplay, pushWords_slot (by simpa using by omega) (by simpa using hj) hslot]
      simp
    · intro h x hdisplay
      by_cases hfar : ∀ j < n + 1, 4 ≤ (x - pushSlot esp j).toNat
      · exact pushWords_of_far (by simpa using hfar)
      · push Not at hfar
        obtain ⟨j, hj, hslot⟩ := hfar
        rw [h j hj x hdisplay hslot, pushWords_slot (by simpa using by omega) (by simpa using hj) hslot]
        simp

end

/-- The words that ENTER pushes, with its frame pointer. -/
def enterWords (memory : DataMemory) (esp ebp : Word) (level : ℕ) : List Word :=
  enterValues memory esp ebp (level - 1) ++ if level = 0 then [] else [esp - 4]

/-- The number of words that ENTER pushes. -/
def enterCount (level : ℕ) : ℕ := if level = 0 then 1 else level + 1

theorem enterWords_length (memory : DataMemory) (esp ebp : Word) (level : ℕ) :
    (enterWords memory esp ebp level).length = enterCount level := by
  rw [enterWords, List.length_append, enterValues_length]
  cases level <;> rfl

namespace FrameState

variable (ss : Word) (s : FrameState)

theorem range_map_succ (f : ℕ → Word) (n : ℕ) : (List.range (n + 1)).map f = (List.range n).map f ++ [f n] := by
  rw [List.range_succ, List.map_append, List.map_singleton]

theorem copyDisplay_iterate (n : ℕ) :
    let copied := (copyDisplay ss)^[n] (s.push ss s.ebp)
    copied.esp = pushSlot s.esp n ∧ copied.ebp = displaySlot s.ebp n ∧
      copied.reads = s.reads ++ (List.range n).map (fun i => ss + displaySlot s.ebp (i + 1)) ∧
      copied.writes = s.writes ++ (List.range (n + 1)).map (fun j => ss + pushSlot s.esp j) := by
  induction n with
  | zero => exact ⟨rfl, (displaySlot_zero s.ebp).symm, (List.append_nil _).symm, rfl⟩
  | succ n ih =>
    obtain ⟨hesp, hebp, hreads, hwrites⟩ := ih
    dsimp only
    rw [Function.iterate_succ_apply']
    refine ⟨?_, ?_, ?_, ?_⟩
    · show _ - 4 = _
      rw [hesp, pushSlot_sub_four]
    · show _ - 4 = _
      rw [hebp, displaySlot_sub_four]
    · show _ ++ [ss + (_ - 4)] = _
      rw [hreads, hebp, displaySlot_sub_four, List.append_assoc,
        ← range_map_succ fun i => ss + displaySlot s.ebp (i + 1)]
    · show _ ++ [ss + (_ - 4)] = _
      rw [hwrites, hesp, pushSlot_sub_four, List.append_assoc, ← range_map_succ]

/-- In a stack segment that starts at zero, the words are pushed at ESP itself. -/
theorem copyDisplay_iterate_memory (n : ℕ) :
    ((copyDisplay 0)^[n] (s.push 0 s.ebp)).memory =
      pushWords s.memory s.esp (enterValues s.memory s.esp s.ebp n) := by
  induction n with
  | zero =>
    show s.memory.setWord (0 + (s.esp - 4)) s.ebp = _
    rw [zero_add]
    rfl
  | succ n ih =>
    obtain ⟨hesp, hebp, -, -⟩ := copyDisplay_iterate 0 s n
    rw [Function.iterate_succ_apply', enterValues, pushWords_concat, enterValues_length, ← ih, ← pushSlot_sub_four,
      ← hesp, ← displaySlot_sub_four, ← hebp]
    show DataMemory.setWord _ (0 + _) (DataMemory.getWord _ (0 + _)) = _
    rw [zero_add, zero_add]

variable (allocation : BitVec 16) (level : ℕ)

/-- The words that ENTER has pushed lie above the room that it allocates. -/
theorem enter_places :
    let entered := s.enter ss allocation level
    entered.esp = s.esp - BitVec.ofNat 32 (4 * enterCount level) - allocation.setWidth 32 ∧
      entered.reads = s.reads ++ (List.range (level - 1)).map (fun i => ss + displaySlot s.ebp (i + 1)) ∧
      entered.writes = s.writes ++ (List.range (enterCount level)).map (fun j => ss + pushSlot s.esp j) := by
  cases level with
  | zero => exact ⟨rfl, (List.append_nil _).symm, rfl⟩
  | succ n =>
    obtain ⟨hesp, -, hreads, hwrites⟩ := copyDisplay_iterate ss s n
    have hcount : enterCount (n + 1) = n + 1 + 1 := rfl
    dsimp only
    rw [hcount]
    refine ⟨?_, hreads, ?_⟩
    · show _ - 4 - _ = _
      rw [Nat.add_sub_cancel, hesp, pushSlot_sub_four, pushSlot]
    · show _ ++ [ss + (_ - 4)] = _
      rw [Nat.add_sub_cancel, hwrites, hesp, pushSlot_sub_four, List.append_assoc, ← range_map_succ]

theorem enter_memory : (s.enter 0 allocation level).memory =
    pushWords s.memory s.esp (enterWords s.memory s.esp s.ebp level) := by
  cases level with
  | zero =>
    show s.memory.setWord (0 + (s.esp - 4)) s.ebp = _
    rw [zero_add]
    rfl
  | succ n =>
    obtain ⟨hesp, -, -, -⟩ := copyDisplay_iterate 0 s n
    have hwords : enterWords s.memory s.esp s.ebp (n + 1) = enterValues s.memory s.esp s.ebp n ++ [s.esp - 4] := rfl
    rw [hwords, pushWords_concat, enterValues_length, ← pushSlot_sub_four, ← copyDisplay_iterate_memory, ← hesp]
    show DataMemory.setWord _ (0 + _) _ = _
    rw [zero_add]
    rfl

end FrameState

end Repiu.X86
