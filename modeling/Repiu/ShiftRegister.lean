import Mathlib.Data.List.Basic
import Mathlib.Data.BitVec

/-!
# Shift registers

A word that is sent bit by bit, most significant bit first, and the registers
that take it in and give it out.
-/

namespace Repiu

variable {n w : ℕ}

/-- The register after one more bit came in at its low end. -/
def shiftIn (r : BitVec w) (b : Bool) : BitVec w := r <<< 1 ||| (if b then 1 else 0)

/-- The bits of a word in the order in which they are sent. -/
def msbFirst (x : BitVec n) : List Bool := (List.range n).map x.getMsbD

@[simp] theorem msbFirst_length (x : BitVec n) : (msbFirst x).length = n := by
  simp [msbFirst]

theorem getLsbD_shiftIn (r : BitVec w) (b : Bool) (i : ℕ) :
    (shiftIn r b).getLsbD i = (decide (i < w) && if i = 0 then b else r.getLsbD (i - 1)) := by
  unfold shiftIn
  rw [BitVec.getLsbD_or, BitVec.getLsbD_shiftLeft]
  by_cases hi : i = 0
  · subst hi
    cases b <;> simp [BitVec.getLsbD_one]
  · cases b <;> simp [hi, BitVec.getLsbD_one]

/-- The first `k` bits of a word, taken in by an empty register. -/
theorem foldl_shiftIn_take (x : BitVec n) {k : ℕ} (hk : k ≤ n) :
    ((List.range k).map x.getMsbD).foldl shiftIn (0 : BitVec w) = (x >>> (n - k)).setWidth w := by
  induction k with
  | zero =>
    apply BitVec.eq_of_getLsbD_eq
    intro i hi
    simp
  | succ k ih =>
    rw [List.range_succ, List.map_append, List.foldl_append, ih (by omega)]
    apply BitVec.eq_of_getLsbD_eq
    intro i hi
    show (shiftIn _ (x.getMsbD k)).getLsbD i = _
    rw [getLsbD_shiftIn, BitVec.getLsbD_setWidth, BitVec.getLsbD_setWidth, BitVec.getLsbD_ushiftRight,
      BitVec.getLsbD_ushiftRight, BitVec.getMsbD_eq_getLsbD]
    by_cases hzero : i = 0
    · subst hzero
      have hpos : n - (k + 1) + 0 = n - 1 - k := by omega
      simp [hi, hpos, show k < n by omega]
    · have hpos : n - k + (i - 1) = n - (k + 1) + i := by omega
      simp [hzero, hi, hpos, show i - 1 < w by omega]

/-- A register that takes in all bits of a word holds the word. -/
theorem foldl_shiftIn_msbFirst (x : BitVec n) :
    (msbFirst x).foldl shiftIn (0 : BitVec w) = x.setWidth w := by
  rw [msbFirst, foldl_shiftIn_take x le_rfl, Nat.sub_self, BitVec.ushiftRight_zero]

end Repiu
