import Repiu.ShiftRegister

/-!
# Two-wire buses

A bus of a data line and a clock line.  Data changes while the clock is low; a change while it is high
starts or stops a transfer, and a rising clock carries a bit.  A transfer is bytes, most significant bit
first, each with a bit that acknowledges it.
-/

namespace Repiu.TwoWireBus

/-- The levels of the lines. -/
structure Lines where
  data : Bool
  clock : Bool
deriving DecidableEq

/-- What a move of the lines says. -/
inductive Symbol
  | bit (value : Bool)
  | start
  | stop
deriving DecidableEq

/-- What the lines say when they go from some levels to others, if they may: one of them at most changes. -/
def move (before after : Lines) : Option (Option Symbol) :=
  if before.clock = after.clock then
    if before.data = after.data ∨ before.clock = false then some none
    else some (some (if after.data then .stop else .start))
  else if before.data = after.data then some (if after.clock then some (.bit after.data) else none)
  else none

/-- What a sequence of levels says. -/
def symbols : Lines → List Lines → Option (List Symbol)
  | _, [] => some []
  | lines, next :: rest =>
    match move lines next with
    | none => none
    | some symbol => (symbols next rest).map (symbol.toList ++ ·)

/-- The bits of bytes, each with the level that acknowledges it. -/
def transferBits (transfer : List (BitVec 8 × Bool)) : List Bool :=
  transfer.flatMap fun sent => msbFirst sent.1 ++ [sent.2]

section Machines

variable {σ : Type*} (place : σ → Lines → σ) (write : σ → Lines → σ) (receive : σ → Symbol → σ)

/-- A machine that sees the levels follows one that receives the symbols, where `place` puts it at levels. -/
def Follows : Prop :=
  ∀ s before after symbol, move before after = some symbol →
    write (place s before) after = place (symbol.toList.foldl receive s) after

variable {place write receive}

/-- Over every sequence of levels. -/
theorem Follows.run (h : Follows place write receive) {s : σ} {lines : Lines} {writes : List Lines}
    {said : List Symbol} (hsaid : symbols lines writes = some said) :
    writes.foldl write (place s lines) = place (said.foldl receive s) (writes.getLastD lines) := by
  induction writes generalizing s lines said with
  | nil =>
    obtain rfl := Option.some.inj hsaid
    rfl
  | cons next rest ih =>
    rw [symbols] at hsaid
    cases hmove : move lines next with
    | none =>
      rw [hmove] at hsaid
      cases hsaid
    | some symbol =>
      rw [hmove] at hsaid
      obtain ⟨later, hlater, rfl⟩ := Option.map_eq_some_iff.mp hsaid
      rw [List.foldl_cons, h s lines next symbol hmove, ih hlater, List.foldl_append, List.getLastD_cons]

end Machines

end Repiu.TwoWireBus
