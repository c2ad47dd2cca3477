import Repiu.ByteMemory

/-!
# Checked buffers

Reads and writes of a buffer that fail outside of it, and a loop that fails where it does not end.
A run without either fault stays inside its buffers and terminates.
-/

namespace Repiu.CheckedBuffers

/-- What a run does instead of returning. -/
inductive BufferFault where
  | outside
  | unfinished
deriving DecidableEq

def readByte (buffer : List Byte) (index : ℕ) : Except BufferFault Byte :=
  match buffer[index]? with
  | some byte => .ok byte
  | none => .error .outside

/-- `n` bytes from `start`. -/
def readSpan (buffer : List Byte) (start n : ℕ) : Except BufferFault (List Byte) :=
  if start + n ≤ buffer.length then .ok ((buffer.drop start).take n) else .error .outside

/-- A buffer with bytes laid over it. -/
def overlay (buffer : List Byte) (start : ℕ) (bytes : List Byte) : List Byte :=
  buffer.take start ++ (bytes ++ buffer.drop (start + bytes.length))

def storeSpan (buffer : List Byte) (start : ℕ) (bytes : List Byte) : Except BufferFault (List Byte) :=
  if start + bytes.length ≤ buffer.length then .ok (overlay buffer start bytes) else .error .outside

/-- Blocks of bytes, each with its place, that are stored one after another. -/
def storeEach : List (Except BufferFault (ℕ × List Byte)) → List Byte → Except BufferFault (List Byte)
  | [], target => .ok target
  | block :: rest, target =>
    match block with
    | .error fault => .error fault
    | .ok (start, bytes) =>
      match storeSpan target start bytes with
      | .error fault => .error fault
      | .ok target => storeEach rest target

/-- What one round of a loop leads to. -/
inductive Round (σ α : Type*) where
  | done (result : α)
  | next (state : σ)

/-- A loop of at most so many rounds. -/
def runLoop {σ α : Type*} (step : σ → Except BufferFault (Round σ α)) : ℕ → σ → Except BufferFault α
  | 0, _ => .error .unfinished
  | rounds + 1, s =>
    match step s with
    | .error fault => .error fault
    | .ok (.done result) => .ok result
    | .ok (.next s') => runLoop step rounds s'

/-! ## Reads -/

variable {buffer before field after : List Byte} {start n : ℕ}

theorem readByte_of_lt (h : start < buffer.length) : readByte buffer start = .ok buffer[start] := by
  unfold readByte
  rw [List.getElem?_eq_getElem h]

theorem readByte_append (byte : Byte) (h : before.length = start) :
    readByte (before ++ byte :: after) start = .ok byte := by
  unfold readByte
  subst h
  rw [List.getElem?_append_right (le_refl _), Nat.sub_self, List.getElem?_cons_zero]

theorem readSpan_of_le (h : start + n ≤ buffer.length) :
    readSpan buffer start n = .ok ((buffer.drop start).take n) :=
  if_pos h

theorem readSpan_append (hstart : before.length = start) (hn : field.length = n) :
    readSpan (before ++ (field ++ after)) start n = .ok field := by
  subst hstart hn
  rw [readSpan_of_le (by simp), List.drop_left, List.take_left]

@[simp] theorem ok_bind {α β : Type} (a : α) (f : α → Except BufferFault β) : (Except.ok a >>= f) = f a := rfl

theorem map_ok {α β : Type} {x : Except BufferFault α} {f : α → β} {b : β} (h : x.map f = .ok b) :
    ∃ a, x = .ok a ∧ f a = b := by
  cases x with
  | error fault => cases h
  | ok a => exact ⟨a, rfl, Except.ok.inj h⟩

/-! ## Stores -/

section
variable {target result bytes : List Byte} {blocks later : List (Except BufferFault (ℕ × List Byte))} {i : ℕ}

theorem overlay_length (h : start + bytes.length ≤ target.length) :
    (overlay target start bytes).length = target.length := by
  unfold overlay
  rw [List.length_append, List.length_append, List.length_take, List.length_drop]
  omega

theorem overlay_inside (h : start + bytes.length ≤ target.length) (hi : start ≤ i ∧ i < start + bytes.length) :
    (overlay target start bytes)[i]? = bytes[i - start]? := by
  have hlength : (target.take start).length = start := by
    rw [List.length_take]
    omega
  unfold overlay
  rw [List.getElem?_append_right (by omega), hlength, List.getElem?_append_left (by omega)]

theorem overlay_outside (h : start + bytes.length ≤ target.length) (hi : ¬(start ≤ i ∧ i < start + bytes.length)) :
    (overlay target start bytes)[i]? = target[i]? := by
  have hlength : (target.take start).length = start := by
    rw [List.length_take]
    omega
  unfold overlay
  by_cases hbefore : i < start
  · rw [List.getElem?_append_left (by omega), List.getElem?_take_of_lt hbefore]
  · rw [List.getElem?_append_right (by omega), hlength, List.getElem?_append_right (by omega), List.getElem?_drop]
    congr 1
    omega

/-- A block that is there, inside a buffer of so many bytes. -/
def Inside (length : ℕ) (block : Except BufferFault (ℕ × List Byte)) : Prop :=
  ∃ start bytes, block = .ok (start, bytes) ∧ start + bytes.length ≤ length

theorem storeEach_cons (h : start + bytes.length ≤ target.length) :
    storeEach (.ok (start, bytes) :: later) target = storeEach later (overlay target start bytes) := by
  rw [storeEach, storeSpan, if_pos h]

/-- The blocks are stored if all of them are inside, and only then. -/
theorem storeEach_ok_iff :
    (∃ result, storeEach blocks target = .ok result) ↔ ∀ block ∈ blocks, Inside target.length block := by
  induction blocks generalizing target with
  | nil => exact iff_of_true ⟨target, rfl⟩ nofun
  | cons block later ih =>
    rw [List.forall_mem_cons]
    cases block with
    | error fault =>
      apply iff_of_false
      · rintro ⟨result, h⟩
        cases h
      · rintro ⟨⟨start, bytes, h, -⟩, -⟩
        cases h
    | ok block =>
      obtain ⟨start, bytes⟩ := block
      by_cases hinside : start + bytes.length ≤ target.length
      · rw [storeEach_cons hinside, ih, overlay_length hinside]
        exact (and_iff_right ⟨start, bytes, rfl, hinside⟩).symm
      · apply iff_of_false
        · rintro ⟨result, h⟩
          rw [storeEach, storeSpan, if_neg hinside] at h
          cases h
        · rintro ⟨⟨start', bytes', h, hinside'⟩, -⟩
          cases h
          exact hinside hinside'

theorem storeEach_inside (h : storeEach blocks target = .ok result) : ∀ block ∈ blocks, Inside target.length block :=
  storeEach_ok_iff.mp ⟨result, h⟩

theorem storeEach_length (h : storeEach blocks target = .ok result) : result.length = target.length := by
  induction blocks generalizing target with
  | nil =>
    cases h
    rfl
  | cons block later ih =>
    obtain ⟨start, bytes, rfl, hinside⟩ := storeEach_inside h block List.mem_cons_self
    rw [storeEach_cons hinside] at h
    rw [ih h, overlay_length hinside]

/-- A byte behind the stores is the old one, where no block lies, or a byte of a block. -/
theorem storeEach_cell (h : storeEach blocks target = .ok result) (i : ℕ) :
    (result[i]? = target[i]? ∧ ∀ start bytes, .ok (start, bytes) ∈ blocks → ¬(start ≤ i ∧ i < start + bytes.length)) ∨
      ∃ start bytes, .ok (start, bytes) ∈ blocks ∧ start ≤ i ∧ i < start + bytes.length ∧
        result[i]? = bytes[i - start]? := by
  induction blocks generalizing target with
  | nil =>
    cases h
    exact .inl ⟨rfl, nofun⟩
  | cons block later ih =>
    obtain ⟨start, bytes, rfl, hinside⟩ := storeEach_inside h block List.mem_cons_self
    rw [storeEach_cons hinside] at h
    rcases ih h with ⟨hsame, hnone⟩ | ⟨start', bytes', hmem, hlow, hhigh, hcell⟩
    · by_cases hi : start ≤ i ∧ i < start + bytes.length
      · refine .inr ⟨start, bytes, List.mem_cons_self, hi.1, hi.2, ?_⟩
        rw [hsame, overlay_inside hinside hi]
      · refine .inl ⟨by rw [hsame, overlay_outside hinside hi], ?_⟩
        intro start' bytes' hmem
        rcases List.mem_cons.mp hmem with heq | hmem
        · cases heq
          exact hi
        · exact hnone start' bytes' hmem
    · exact .inr ⟨start', bytes', List.mem_cons_of_mem _ hmem, hlow, hhigh, hcell⟩

/-- Blocks that are all there and inside are laid over the buffer in turn. -/
theorem storeEach_map {ι : Type} {rows : List ι} {starts : ι → ℕ} {contents : ι → List Byte}
    (h : ∀ row ∈ rows, starts row + (contents row).length ≤ target.length) :
    storeEach (rows.map fun row => .ok (starts row, contents row)) target =
      .ok (rows.foldl (fun target row => overlay target (starts row) (contents row)) target) := by
  induction rows generalizing target with
  | nil => rfl
  | cons row rows ih =>
    rw [List.forall_mem_cons] at h
    rw [List.map_cons, storeEach_cons h.1, ih (by rw [overlay_length h.1]; exact h.2)]
    rfl

/-- The last block over a byte decides it. -/
theorem storeEach_last (h : storeEach (blocks ++ .ok (start, bytes) :: later) target = .ok result)
    (hi : start ≤ i ∧ i < start + bytes.length)
    (hlater : ∀ start bytes, .ok (start, bytes) ∈ later → ¬(start ≤ i ∧ i < start + bytes.length)) :
    result[i]? = bytes[i - start]? := by
  induction blocks generalizing target with
  | nil =>
    have hinside : start + bytes.length ≤ target.length := by
      obtain ⟨start', bytes', heq, hinside⟩ := storeEach_inside h _ List.mem_cons_self
      cases heq
      exact hinside
    rw [List.nil_append, storeEach_cons hinside] at h
    rcases storeEach_cell h i with ⟨hsame, -⟩ | ⟨start', bytes', hmem, hlow, hhigh, -⟩
    · rw [hsame, overlay_inside hinside hi]
    · exact absurd ⟨hlow, hhigh⟩ (hlater start' bytes' hmem)
  | cons block blocks ih =>
    obtain ⟨start', bytes', rfl, hinside⟩ := storeEach_inside h block List.mem_cons_self
    rw [List.cons_append, storeEach_cons hinside] at h
    exact ih h

end

/-! ## Loops -/

variable {σ α : Type*} {step : σ → Except BufferFault (Round σ α)} {s s' : σ} {a b : α}

/-- A loop ends without a fault if its rounds have none and a measure goes down. -/
theorem runLoop_ok (Inv : σ → Prop) (measure : σ → ℕ)
    (hstep : ∀ s, Inv s → ∃ round, step s = .ok round ∧
      ∀ s', round = .next s' → Inv s' ∧ measure s' < measure s) :
    ∀ {rounds s}, Inv s → measure s < rounds → ∃ a, runLoop step rounds s = .ok a := by
  intro rounds
  induction rounds with
  | zero => exact fun _ h => absurd h (Nat.not_lt_zero _)
  | succ rounds ih =>
    intro s hinv hrounds
    obtain ⟨round, hround, hnext⟩ := hstep s hinv
    rw [runLoop, hround]
    cases round with
    | done result => exact ⟨result, rfl⟩
    | next s' =>
      obtain ⟨hinv', hless⟩ := hnext s' rfl
      exact ih hinv' (by omega)

/-- The rounds of a loop lead from a state to a result. -/
inductive Yields (step : σ → Except BufferFault (Round σ α)) : σ → α → Prop
  | done {s : σ} {a : α} (h : step s = .ok (.done a)) : Yields step s a
  | next {s s' : σ} {a : α} (h : step s = .ok (.next s')) (hrest : Yields step s' a) : Yields step s a

/-- A loop that ends without a fault returns what its rounds lead to. -/
theorem Yields.runLoop_eq (h : Yields step s a) {rounds : ℕ} (hloop : runLoop step rounds s = .ok b) : a = b := by
  induction h generalizing rounds with
  | done h =>
    cases rounds with
    | zero => cases hloop
    | succ rounds =>
      rw [runLoop, h] at hloop
      exact Except.ok.inj hloop
  | next h _ ih =>
    cases rounds with
    | zero => cases hloop
    | succ rounds =>
      rw [runLoop, h] at hloop
      exact ih hloop

end Repiu.CheckedBuffers
