import Mathlib.Data.BitVec
import Mathlib.Data.Nat.Basic
import Mathlib.Tactic.Common

/-!
# Positions in a ring

Counters that run forward for ever, kept in a fixed width and mapped onto the
slots of a ring whose size is a power of two.
-/

namespace Repiu.RingIndex

/-- The slot of byte `i` of a block that starts at slot `start` and goes on at slot zero behind the
first `first` bytes. -/
def blockSlot (start first i : ℕ) : ℕ := if i < first then start + i else i - first

/-- A block of a ring lies on consecutive positions. -/
theorem blockSlot_eq_mod {capacity position count i : ℕ} (hcapacity : 0 < capacity) (hcount : count ≤ capacity)
    (hi : i < count) :
    blockSlot (position % capacity) (min count (capacity - position % capacity)) i = (position + i) % capacity := by
  have hstart := Nat.mod_lt position hcapacity
  rw [← Nat.mod_add_mod]
  generalize position % capacity = start at hstart ⊢
  unfold blockSlot
  split
  case isTrue h => rw [Nat.mod_eq_of_lt (by omega)]
  case isFalse h =>
    rw [Nat.mod_eq_sub_mod (by omega), Nat.mod_eq_of_lt (by omega)]
    omega

/-- Two positions less than one round apart have different slots. -/
theorem mod_ne_mod {capacity a b : ℕ} (hlt : a < b) (hround : b < a + capacity) : a % capacity ≠ b % capacity := by
  intro h
  have hdvd := (Nat.modEq_iff_dvd' hlt.le).mp h
  exact absurd (Nat.le_of_dvd (by omega) hdvd) (by omega)

/-- The distance of two counters survives their wrap. -/
theorem toNat_sub_ofNat {w r n : ℕ} (hle : r ≤ n) (hlt : n - r < 2 ^ w) :
    (BitVec.ofNat w n - BitVec.ofNat w r).toNat = n - r := by
  obtain ⟨d, rfl⟩ := Nat.exists_eq_add_of_le hle
  rw [Nat.add_sub_cancel_left] at hlt ⊢
  rw [BitVec.ofNat_add, add_sub_cancel_left, BitVec.toNat_ofNat, Nat.mod_eq_of_lt hlt]

/-- The slot of a wrapped counter, cut to a narrower type and masked. -/
theorem toNat_mod_and_mask {w narrow k n : ℕ} (hw : k ≤ w) (hnarrow : k ≤ narrow) :
    ((BitVec.ofNat w n).toNat % 2 ^ narrow) &&& (2 ^ k - 1) = n % 2 ^ k := by
  rw [Nat.and_two_pow_sub_one_eq_mod, BitVec.toNat_ofNat, Nat.mod_mod_of_dvd _ (Nat.pow_dvd_pow 2 hnarrow),
    Nat.mod_mod_of_dvd _ (Nat.pow_dvd_pow 2 hw)]

/-- A word without its low bits. -/
theorem toNat_and_not_mask {w : ℕ} (x : BitVec w) (k : ℕ) :
    (x &&& ~~~(BitVec.ofNat w (2 ^ k - 1))).toNat = x.toNat / 2 ^ k * 2 ^ k := by
  have hbits : x &&& ~~~(BitVec.ofNat w (2 ^ k - 1)) = (x >>> k) <<< k := by
    apply BitVec.eq_of_getLsbD_eq
    intro i hi
    rw [BitVec.getLsbD_and, BitVec.getLsbD_not, BitVec.getLsbD_shiftLeft, BitVec.getLsbD_ushiftRight,
      BitVec.getLsbD_ofNat, Nat.testBit_two_pow_sub_one]
    by_cases hlow : i < k
    · simp [hi, hlow]
    · rw [show k + (i - k) = i by omega]
      simp [hi, hlow]
  have hle : x.toNat / 2 ^ k * 2 ^ k ≤ x.toNat := Nat.div_mul_le_self _ _
  rw [hbits, BitVec.toNat_shiftLeft, BitVec.toNat_ushiftRight, Nat.shiftRight_eq_div_pow, Nat.shiftLeft_eq,
    Nat.mod_eq_of_lt (hle.trans_lt x.isLt)]

end Repiu.RingIndex
