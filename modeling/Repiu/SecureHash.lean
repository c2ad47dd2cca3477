import Repiu.ByteMemory
import Mathlib.Tactic.Ring
import Mathlib.Tactic.NormNum

/-!
# SHA-256

The secure hash algorithm of FIPS 180-4 over byte strings: padding, message schedule and
compression. The constants are computed from the primes they come from.
-/

namespace Repiu.SecureHash

/-! ## Constants -/

/-- The greatest number below `2 ^ bits` whose `k`-th power is at most `n`. -/
def rootBelow (k : ℕ) : ℕ → ℕ → ℕ
  | 0, _ => 0
  | bits + 1, n =>
    let r := 2 * rootBelow k bits (n / 2 ^ k)
    if (r + 1) ^ k ≤ n then r + 1 else r

/-- The first 64 primes. -/
def primes : List ℕ :=
  [2, 3, 5, 7, 11, 13, 17, 19, 23, 29, 31, 37, 41, 43, 47, 53, 59, 61, 67, 71, 73, 79, 83, 89, 97, 101,
    103, 107, 109, 113, 127, 131, 137, 139, 149, 151, 157, 163, 167, 173, 179, 181, 191, 193, 197, 199,
    211, 223, 227, 229, 233, 239, 241, 251, 257, 263, 269, 271, 277, 281, 283, 293, 307, 311]

/-- The first 32 bits of the fractional part of the `k`-th root of `p`. -/
def rootFraction (k p : ℕ) : Word := BitVec.ofNat 32 (rootBelow k 48 (p * 2 ^ (32 * k)))

/-- The words `K`, from the cube roots of the first 64 primes. -/
def roundConstants : List Word := primes.map (rootFraction 3)

/-! ## Words -/

def ch (x y z : Word) : Word := (x &&& y) ^^^ (~~~x &&& z)

def maj (x y z : Word) : Word := (x &&& y) ^^^ (x &&& z) ^^^ (y &&& z)

def bigSigma0 (x : Word) : Word := x.rotateRight 2 ^^^ x.rotateRight 13 ^^^ x.rotateRight 22

def bigSigma1 (x : Word) : Word := x.rotateRight 6 ^^^ x.rotateRight 11 ^^^ x.rotateRight 25

def smallSigma0 (x : Word) : Word := x.rotateRight 7 ^^^ x.rotateRight 18 ^^^ (x >>> 3)

def smallSigma1 (x : Word) : Word := x.rotateRight 17 ^^^ x.rotateRight 19 ^^^ (x >>> 10)

/-- The words of a byte string, most significant byte first. -/
def words : List Byte → List Word
  | b0 :: b1 :: b2 :: b3 :: rest => (b0 ++ b1 ++ b2 ++ b3) :: words rest
  | _ => []

/-- The bytes of a word, most significant byte first. -/
def wordBytes (w : Word) : List Byte :=
  [w.extractLsb' 24 8, w.extractLsb' 16 8, w.extractLsb' 8 8, w.extractLsb' 0 8]

theorem words_eq_map (n : ℕ) (block : List Byte) (h : block.length = 4 * n) :
    words block = (List.range n).map fun k =>
      block.getD (4 * k) 0 ++ block.getD (4 * k + 1) 0 ++ block.getD (4 * k + 2) 0 ++
        block.getD (4 * k + 3) 0 := by
  induction n generalizing block with
  | zero =>
    rw [List.eq_nil_of_length_eq_zero h]
    rfl
  | succ n ih =>
    obtain ⟨b0, b1, b2, b3, rest, rfl⟩ : ∃ b0 b1 b2 b3 rest, block = b0 :: b1 :: b2 :: b3 :: rest := by
      match block, h with
      | b0 :: b1 :: b2 :: b3 :: rest, _ => exact ⟨b0, b1, b2, b3, rest, rfl⟩
    have hrest : rest.length = 4 * n := by
      simp only [List.length_cons] at h
      omega
    rw [words, ih rest hrest, List.range_succ_eq_map, List.map_cons, List.map_map]
    congr 1

/-! ## Compression -/

/-- Eight words: a hash value, or the working variables. -/
structure Words8 where
  a : Word
  b : Word
  c : Word
  d : Word
  e : Word
  f : Word
  g : Word
  h : Word
deriving DecidableEq

namespace Words8

def add (x y : Words8) : Words8 :=
  { a := x.a + y.a, b := x.b + y.b, c := x.c + y.c, d := x.d + y.d
    e := x.e + y.e, f := x.f + y.f, g := x.g + y.g, h := x.h + y.h }

def bytes (x : Words8) : List Byte :=
  wordBytes x.a ++ wordBytes x.b ++ wordBytes x.c ++ wordBytes x.d ++
    wordBytes x.e ++ wordBytes x.f ++ wordBytes x.g ++ wordBytes x.h

end Words8

/-- The initial hash value, from the square roots of the first eight primes. -/
def initialHash : Words8 where
  a := rootFraction 2 2
  b := rootFraction 2 3
  c := rootFraction 2 5
  d := rootFraction 2 7
  e := rootFraction 2 11
  f := rootFraction 2 13
  g := rootFraction 2 17
  h := rootFraction 2 19

/-- The message schedule of a block, up to word `16 + n`. -/
def schedule (block : List Word) : ℕ → List Word
  | 0 => block
  | n + 1 =>
    let w := schedule block n
    w ++ [smallSigma1 (w.getD (n + 14) 0) + w.getD (n + 9) 0 + smallSigma0 (w.getD (n + 1) 0) +
      w.getD n 0]

/-- One round with the words `K` and `W`. -/
def hashRound (v : Words8) (K W : Word) : Words8 :=
  let t1 := v.h + bigSigma1 v.e + ch v.e v.f v.g + K + W
  let t2 := bigSigma0 v.a + maj v.a v.b v.c
  { a := t1 + t2, b := v.a, c := v.b, d := v.c, e := v.d + t1, f := v.e, g := v.f, h := v.g }

/-- The hash value after one more block. -/
def compress (H : Words8) (block : List Word) : Words8 :=
  let w := schedule block 48
  H.add ((List.range 64).foldl (fun v t => hashRound v (roundConstants.getD t 0) (w.getD t 0)) H)

@[simp] theorem length_schedule (block : List Word) (n : ℕ) :
    (schedule block n).length = block.length + n := by
  induction n with
  | zero => rfl
  | succ n ih => rw [schedule, List.length_append, ih, List.length_singleton, Nat.add_assoc]

/-! ## The digest -/

/-- The zero bytes between the terminator and the length. -/
def zeroCount (length : ℕ) : ℕ := (55 + 64 - length % 64) % 64

/-- They are as few as let the length end a block. -/
theorem zeroCount_spec (length : ℕ) :
    (length + 1 + zeroCount length) % 64 = 56 ∧
      ∀ n < zeroCount length, (length + 1 + n) % 64 ≠ 56 := by
  unfold zeroCount
  constructor
  · omega
  · intro n hn
    omega

/-- The length of a message in bits, in eight bytes. The standard has no longer messages. -/
def lengthBytes (length : ℕ) : List Byte :=
  let bits : BitVec 64 := BitVec.ofNat 64 (8 * length)
  [bits.extractLsb' 56 8, bits.extractLsb' 48 8, bits.extractLsb' 40 8, bits.extractLsb' 32 8,
    bits.extractLsb' 24 8, bits.extractLsb' 16 8, bits.extractLsb' 8 8, bits.extractLsb' 0 8]

def pad (message : List Byte) : List Byte :=
  message ++ [0x80] ++ List.replicate (zeroCount message.length) 0 ++ lengthBytes message.length

/-- The hash value after the first `n` blocks of 64 bytes. -/
def hashBlocks (H : Words8) (n : ℕ) (message : List Byte) : Words8 :=
  (List.range n).foldl (fun H i => compress H (words ((message.drop (64 * i)).take 64))) H

/-- SHA-256. -/
def digest (message : List Byte) : List Byte :=
  (hashBlocks initialHash ((pad message).length / 64) (pad message)).bytes

theorem hashBlocks_zero (H : Words8) (message : List Byte) : hashBlocks H 0 message = H := rfl

theorem hashBlocks_succ (H : Words8) (n : ℕ) (message : List Byte) :
    hashBlocks H (n + 1) message =
      compress (hashBlocks H n message) (words ((message.drop (64 * n)).take 64)) := by
  unfold hashBlocks
  rw [List.range_succ, List.foldl_append]
  rfl

/-- Blocks that are complete do not change when the message goes on. -/
theorem hashBlocks_append (H : Words8) {n : ℕ} (message more : List Byte) (hn : 64 * n ≤ message.length) :
    hashBlocks H n (message ++ more) = hashBlocks H n message := by
  induction n with
  | zero => rw [hashBlocks_zero, hashBlocks_zero]
  | succ n ih =>
    have hblock : ((message ++ more).drop (64 * n)).take 64 = (message.drop (64 * n)).take 64 := by
      rw [List.drop_append_of_le_length (by omega), List.take_append_of_le_length]
      rw [List.length_drop]
      omega
    rw [hashBlocks_succ, hashBlocks_succ, ih (by omega), hblock]

end Repiu.SecureHash
