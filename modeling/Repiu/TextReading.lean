import Repiu.ByteMemory

/-!
# Reading a text from left to right

Functions that read a value off the front of a text or stop in the midst of it, and loops of them
that may not end.
-/

namespace Repiu

/-- How far a function came: `rest` is what it has not read. `unfinished` is a loop out of rounds. -/
inductive Reading (α : Type) where
  | ok (value : α) (rest : List Byte)
  | failed (rest : List Byte)
  | unfinished

namespace Reading

variable {α β : Type}

def bind (reading : Reading α) (next : α → List Byte → Reading β) : Reading β :=
  match reading with
  | ok value rest => next value rest
  | failed rest => failed rest
  | unfinished => unfinished

def map (f : α → β) (reading : Reading α) : Reading β := reading.bind fun value rest => ok (f value) rest

variable {reading : Reading α} {next : α → List Byte → Reading β} {f : α → β} {value : α} {value' : β}
  {rest rest' : List Byte}

@[simp] theorem ok_bind : (ok value rest).bind next = next value rest := rfl

@[simp] theorem failed_bind : (failed rest).bind next = failed rest := rfl

@[simp] theorem ok_map : (ok value rest).map f = ok (f value) rest := rfl

theorem bind_eq_ok :
    reading.bind next = ok value' rest' ↔ ∃ value rest, reading = ok value rest ∧ next value rest = ok value' rest' := by
  cases reading <;> simp [bind]

theorem map_eq_ok : reading.map f = ok value' rest ↔ ∃ value, reading = ok value rest ∧ f value = value' := by
  cases reading with
  | ok value rest => simp [and_comm]
  | failed rest => simp [map]
  | unfinished => simp [map, bind]

theorem bind_ne_unfinished (h : reading ≠ unfinished)
    (hnext : ∀ value rest, reading = ok value rest → next value rest ≠ unfinished) :
    reading.bind next ≠ unfinished := by
  cases reading with
  | ok value rest => exact hnext value rest rfl
  | failed rest => simp
  | unfinished => exact absurd rfl h

theorem map_ne_unfinished (h : reading ≠ unfinished) : reading.map f ≠ unfinished :=
  bind_ne_unfinished h fun _ _ _ => by simp

end Reading
end Repiu
