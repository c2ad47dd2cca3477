import Repiu.ByteMemory

/-!
# The sizes of a host

Numbers of the width of `size_t`, and buffers whose size is a difference of pointers.
-/

namespace Repiu

/-- The widths of `size_t`. -/
inductive SizeWidth where
  | bits32
  | bits64

namespace SizeWidth

def modulus : SizeWidth → ℕ
  | .bits32 => 2 ^ 32
  | .bits64 => 2 ^ 64

/-- A number as a `size_t`. -/
def wrap (width : SizeWidth) (n : ℕ) : ℕ := n % width.modulus

/-- An `int32_t` as a `size_t`. -/
def ofInt32 (width : SizeWidth) (n : Word) : ℕ := if n.toNat < 2 ^ 31 then n.toNat else width.modulus - (2 ^ 32 - n.toNat)

variable {width : SizeWidth}

theorem wrap_of_lt {n : ℕ} (h : n < width.modulus) : width.wrap n = n := Nat.mod_eq_of_lt h

theorem modulus_ge (width : SizeWidth) : 2 ^ 32 ≤ width.modulus := by
  cases width <;> decide

theorem modulus_le (width : SizeWidth) : width.modulus ≤ 2 ^ 64 := by
  cases width <;> decide

end SizeWidth

/-- A vector of bytes. Its size is a difference of pointers. -/
structure HostBytes (width : SizeWidth) where
  bytes : List Byte
  size_lt : 2 * bytes.length < width.modulus

end Repiu
