import Repiu.SecureHash

/-!
# The digest of a download

`sha256.cpp`: the hash that a downloaded release archive is checked with. Bytes are buffered up to
a block; the padding goes through the same buffer.
-/

namespace Repiu.Update

open SecureHash

/-- `kRoundConstants`. -/
def kRoundConstants : List Word :=
  [0x428a2f98, 0x71374491, 0xb5c0fbcf, 0xe9b5dba5, 0x3956c25b,
    0x59f111f1, 0x923f82a4, 0xab1c5ed5, 0xd807aa98, 0x12835b01,
    0x243185be, 0x550c7dc3, 0x72be5d74, 0x80deb1fe, 0x9bdc06a7,
    0xc19bf174, 0xe49b69c1, 0xefbe4786, 0x0fc19dc6, 0x240ca1cc,
    0x2de92c6f, 0x4a7484aa, 0x5cb0a9dc, 0x76f988da, 0x983e5152,
    0xa831c66d, 0xb00327c8, 0xbf597fc7, 0xc6e00bf3, 0xd5a79147,
    0x06ca6351, 0x14292967, 0x27b70a85, 0x2e1b2138, 0x4d2c6dfc,
    0x53380d13, 0x650a7354, 0x766a0abb, 0x81c2c92e, 0x92722c85,
    0xa2bfe8a1, 0xa81a664b, 0xc24b8b70, 0xc76c51a3, 0xd192e819,
    0xd6990624, 0xf40e3585, 0x106aa070, 0x19a4c116, 0x1e376c08,
    0x2748774c, 0x34b0bcb5, 0x391c0cb3, 0x4ed8aa4a, 0x5b9cca4f,
    0x682e6ff3, 0x748f82ee, 0x78a5636f, 0x84c87814, 0x8cc70208,
    0x90befffa, 0xa4506ceb, 0xbef9a3f7, 0xc67178f2]

/-- `RotateRight`. -/
def rotateRight (value : Word) (bits : ℕ) : Word := (value >>> bits) ||| (value <<< (32 - bits))

/-- `Sha256`, between two calls. -/
structure Sha256 where
  state : Words8 :=
    { a := 0x6a09e667, b := 0xbb67ae85, c := 0x3c6ef372, d := 0xa54ff53a
      e := 0x510e527f, f := 0x9b05688c, g := 0x1f83d9ab, h := 0x5be0cd19 }
  buffer : List Byte := List.replicate 64 0
  buffered : ℕ := 0
  totalBytes : BitVec 64 := 0
  buffer_size : buffer.length = 64 := by rfl
  buffered_lt : buffered < 64 := by decide

/-- The first loop of `Compress`. -/
def loadSchedule (block : List Byte) : List Word :=
  (List.range 16).foldl
    (fun schedule index =>
      schedule.set index
        (((block.getD (index * 4) 0).setWidth 32 <<< 24) |||
          ((block.getD (index * 4 + 1) 0).setWidth 32 <<< 16) |||
          ((block.getD (index * 4 + 2) 0).setWidth 32 <<< 8) |||
          (block.getD (index * 4 + 3) 0).setWidth 32))
    (List.replicate 64 0)

/-- The body of the second loop of `Compress`. -/
def extendWord (schedule : List Word) (index : ℕ) : List Word :=
  let s0 := rotateRight (schedule.getD (index - 15) 0) 7 ^^^
    rotateRight (schedule.getD (index - 15) 0) 18 ^^^ (schedule.getD (index - 15) 0 >>> 3)
  let s1 := rotateRight (schedule.getD (index - 2) 0) 17 ^^^
    rotateRight (schedule.getD (index - 2) 0) 19 ^^^ (schedule.getD (index - 2) 0 >>> 10)
  schedule.set index (schedule.getD (index - 16) 0 + s0 + schedule.getD (index - 7) 0 + s1)

/-- The second loop of `Compress`. -/
def extendSchedule (schedule : List Word) : List Word := (List.range' 16 48).foldl extendWord schedule

/-- The body of the third loop of `Compress`. -/
def compressRound (schedule : List Word) (v : Words8) (index : ℕ) : Words8 :=
  let s1 := rotateRight v.e 6 ^^^ rotateRight v.e 11 ^^^ rotateRight v.e 25
  let choice := (v.e &&& v.f) ^^^ (~~~v.e &&& v.g)
  let temp1 := v.h + s1 + choice + kRoundConstants.getD index 0 + schedule.getD index 0
  let s0 := rotateRight v.a 2 ^^^ rotateRight v.a 13 ^^^ rotateRight v.a 22
  let majority := (v.a &&& v.b) ^^^ (v.a &&& v.c) ^^^ (v.b &&& v.c)
  let temp2 := s0 + majority
  { h := v.g, g := v.f, f := v.e, e := v.d + temp1, d := v.c, c := v.b, b := v.a, a := temp1 + temp2 }

/-- `Compress`. -/
def compressBlock (state : Words8) (block : List Byte) : Words8 :=
  let schedule := extendSchedule (loadSchedule block)
  let v := (List.range 64).foldl (compressRound schedule) state
  { a := state.a + v.a, b := state.b + v.b, c := state.c + v.c, d := state.d + v.d
    e := state.e + v.e, f := state.f + v.f, g := state.g + v.g, h := state.h + v.h }

namespace Sha256

/-- `memcpy` to the end of the bytes that are buffered. -/
def copied (s : Sha256) (bytes : List Byte) (take : ℕ) : List Byte :=
  s.buffer.take s.buffered ++ bytes.take take ++ s.buffer.drop (s.buffered + take)

theorem length_copied (s : Sha256) {bytes : List Byte} {take : ℕ} (htake : take ≤ bytes.length)
    (hfits : s.buffered + take ≤ 64) : (s.copied bytes take).length = 64 := by
  have hsize := s.buffer_size
  simp only [copied, List.length_append, List.length_take, List.length_drop]
  omega

/-- `take`: how many bytes the buffer takes. -/
def takes (s : Sha256) (bytes : List Byte) : ℕ := min bytes.length (64 - s.buffered)

theorem takes_le (s : Sha256) (bytes : List Byte) : s.takes bytes ≤ bytes.length := Nat.min_le_left _ _

theorem buffered_add_takes_le (s : Sha256) (bytes : List Byte) : s.buffered + s.takes bytes ≤ 64 := by
  have hlt := s.buffered_lt
  unfold takes
  omega

/-- The loop of `Update`. -/
def absorb (s : Sha256) (bytes : List Byte) : Sha256 :=
  if hsize : bytes.length = 0 then s
  else if hfull : s.buffered + s.takes bytes = 64 then
    absorb
      { s with
        state := compressBlock s.state (s.copied bytes (s.takes bytes))
        buffer := s.copied bytes (s.takes bytes)
        buffered := 0
        buffer_size := s.length_copied (s.takes_le bytes) (s.buffered_add_takes_le bytes)
        buffered_lt := by decide }
      (bytes.drop (s.takes bytes))
  else
    absorb
      { s with
        buffer := s.copied bytes (s.takes bytes)
        buffered := s.buffered + s.takes bytes
        buffer_size := s.length_copied (s.takes_le bytes) (s.buffered_add_takes_le bytes)
        buffered_lt := lt_of_le_of_ne (s.buffered_add_takes_le bytes) hfull }
      (bytes.drop (s.takes bytes))
termination_by bytes.length
decreasing_by
  all_goals
    have hlt := s.buffered_lt
    rw [List.length_drop]
    unfold takes
    omega

/-- `Update`. -/
def update (s : Sha256) (data : List Byte) : Sha256 :=
  absorb { s with totalBytes := s.totalBytes + BitVec.ofNat 64 data.length } data

/-- The padding loop of `Finish`, with at most so many steps. -/
def padZeros : ℕ → Sha256 → Option Sha256
  | 0, _ => none
  | fuel + 1, s => if s.buffered ≠ 56 then padZeros fuel (s.update [0]) else some s

/-- `bit_length`, most significant byte first. -/
def lengthOf (bitLength : BitVec 64) : List Byte :=
  (List.range 8).map fun index => (bitLength >>> (56 - index * 8)).setWidth 8

/-- `state_`, most significant bytes first. -/
def digestOf (state : Words8) : List Byte :=
  [state.a, state.b, state.c, state.d, state.e, state.f, state.g, state.h].flatMap fun word : Word =>
    [(word >>> 24).setWidth 8, (word >>> 16).setWidth 8, (word >>> 8).setWidth 8, word.setWidth 8]

/-- `Finish`, when the padding loop ends. -/
def finish (fuel : ℕ) (s : Sha256) : Option (List Byte) :=
  let bitLength := s.totalBytes * 8
  (padZeros fuel (s.update [0x80])).map fun s => digestOf (s.update (lengthOf bitLength)).state

end Sha256

/-! ## Compression -/

theorem kRoundConstants_eq : kRoundConstants = roundConstants := by decide +kernel

theorem initialState_eq : ({} : Sha256).state = initialHash := by decide +kernel

theorem rotateRight_eq (value : Word) {bits : ℕ} (h : bits < 32) :
    rotateRight value bits = value.rotateRight bits := by
  rw [BitVec.rotateRight_eq_rotateRightAux_of_lt h]
  rfl

/-- Four bytes shifted into a word. -/
theorem shifted_eq (b0 b1 b2 b3 : Byte) :
    (b0.setWidth 32 <<< 24) ||| (b1.setWidth 32 <<< 16) ||| (b2.setWidth 32 <<< 8) ||| b3.setWidth 32 =
      (b0 ++ b1 ++ b2 ++ b3 : Word) := by
  ext i hi
  simp only [BitVec.getElem_or, BitVec.getElem_shiftLeft, BitVec.getElem_setWidth]
  grind

/-- A loop that sets one element after another. -/
theorem foldl_set_eq {α : Type} (value : ℕ → α) (x : α) {n m : ℕ} (h : n ≤ m) :
    (List.range n).foldl (fun l index => l.set index (value index)) (List.replicate m x) =
      (List.range n).map value ++ List.replicate (m - n) x := by
  induction n with
  | zero => rfl
  | succ n ih =>
    have hleft : m - n = (m - (n + 1)) + 1 := by omega
    have hlength : ((List.range n).map value).length = n := by
      rw [List.length_map, List.length_range]
    rw [List.range_succ, List.foldl_append, ih (by omega), hleft, List.replicate_succ]
    show ((List.range n).map value ++ x :: List.replicate (m - (n + 1)) x).set n (value n) = _
    rw [List.set_append_right _ _ (le_of_eq hlength), hlength, Nat.sub_self, List.set_cons_zero,
      List.map_append, List.append_assoc]
    rfl

theorem loadSchedule_eq {block : List Byte} (h : block.length = 64) :
    loadSchedule block = words block ++ List.replicate 48 0 := by
  unfold loadSchedule
  rw [foldl_set_eq _ _ (by decide), words_eq_map 16 block h]
  congr 1
  apply List.map_congr_left
  intro index _
  rw [shifted_eq, Nat.mul_comm index 4]

/-- One more word of the schedule. -/
theorem extendWord_eq {block : List Word} (hblock : block.length = 16) (n : ℕ) (x : Word) (rest : List Word) :
    extendWord (schedule block n ++ x :: rest) (16 + n) = schedule block (n + 1) ++ rest := by
  have hlength : (schedule block n).length = n + 16 := by
    rw [length_schedule, hblock, Nat.add_comm]
  have hgetD : ∀ k < n + 16,
      (schedule block n ++ x :: rest).getD k 0 = (schedule block n).getD k 0 := by
    intro k hk
    rw [List.getD_append _ _ _ _ (lt_of_lt_of_eq hk hlength.symm)]
  unfold extendWord
  rw [hgetD _ (by omega), hgetD _ (by omega), hgetD _ (by omega), hgetD _ (by omega),
    List.set_append_right _ _ (by omega), hlength, show 16 + n - (n + 16) = 0 by omega,
    List.set_cons_zero, rotateRight_eq _ (by decide), rotateRight_eq _ (by decide),
    rotateRight_eq _ (by decide), rotateRight_eq _ (by decide), show 16 + n - 15 = n + 1 by omega,
    show 16 + n - 2 = n + 14 by omega, show 16 + n - 16 = n by omega,
    show 16 + n - 7 = n + 9 by omega, schedule, List.append_assoc, List.singleton_append]
  congr 2
  show (schedule block n).getD n 0 + smallSigma0 _ + (schedule block n).getD (n + 9) 0 + smallSigma1 _ = _
  ac_rfl

theorem extendSchedule_eq {block : List Word} (hblock : block.length = 16) {n : ℕ} (hn : n ≤ 48) :
    (List.range' 16 n).foldl extendWord (block ++ List.replicate 48 0) =
      schedule block n ++ List.replicate (48 - n) 0 := by
  induction n with
  | zero => rfl
  | succ n ih =>
    have hleft : 48 - n = (48 - (n + 1)) + 1 := by omega
    rw [List.range'_concat, List.foldl_append, ih (by omega), hleft, List.replicate_succ, Nat.one_mul]
    exact extendWord_eq hblock n 0 _

theorem compressRound_eq (schedule : List Word) (v : Words8) (index : ℕ) :
    compressRound schedule v index =
      hashRound v (roundConstants.getD index 0) (schedule.getD index 0) := by
  unfold compressRound hashRound bigSigma0 bigSigma1 ch maj
  rw [kRoundConstants_eq, rotateRight_eq _ (by decide), rotateRight_eq _ (by decide),
    rotateRight_eq _ (by decide), rotateRight_eq _ (by decide), rotateRight_eq _ (by decide),
    rotateRight_eq _ (by decide)]

theorem compressBlock_eq (state : Words8) {block : List Byte} (h : block.length = 64) :
    compressBlock state block = compress state (words block) := by
  have hwords : (words block).length = 16 := by
    rw [words_eq_map 16 block h, List.length_map, List.length_range]
  have hschedule : extendSchedule (loadSchedule block) = schedule (words block) 48 := by
    rw [loadSchedule_eq h]
    have hloop := extendSchedule_eq hwords (le_refl 48)
    rw [Nat.sub_self, List.replicate_zero, List.append_nil] at hloop
    exact hloop
  have hround : compressRound (schedule (words block) 48) =
      fun v index => hashRound v (roundConstants.getD index 0) ((schedule (words block) 48).getD index 0) := by
    funext v index
    exact compressRound_eq _ v index
  unfold compressBlock compress
  simp only [hschedule, hround]
  rfl

/-! ## The buffer -/

/-- What is left of a message after its full blocks is in the buffer. -/
structure Buffers (initial : Words8) (s : Sha256) (message : List Byte) : Prop where
  state : s.state = hashBlocks initial (message.length / 64) message
  buffered : s.buffered = message.length % 64
  rest : s.buffer.take s.buffered = message.drop (64 * (message.length / 64))

namespace Sha256

theorem take_copied (s : Sha256) {bytes : List Byte} {take : ℕ} (htake : take ≤ bytes.length) :
    (s.copied bytes take).take (s.buffered + take) = s.buffer.take s.buffered ++ bytes.take take := by
  have hsize := s.buffer_size
  have hlt := s.buffered_lt
  apply List.take_left'
  rw [List.length_append, List.length_take, List.length_take]
  omega

end Sha256

namespace Buffers

variable {initial : Words8} {s : Sha256} {message : List Byte}

/-- The block that is in the making with some more bytes. -/
theorem copied_eq (h : Buffers initial s message) {bytes : List Byte} {take : ℕ} (htake : take ≤ bytes.length) :
    (s.copied bytes take).take (s.buffered + take) =
      (message ++ bytes.take take).drop (64 * (message.length / 64)) := by
  rw [s.take_copied htake, h.rest, List.drop_append_of_le_length (Nat.mul_div_le _ _)]

theorem absorb (h : Buffers initial s message) (bytes : List Byte) :
    Buffers initial (s.absorb bytes) (message ++ bytes) := by
  induction hn : bytes.length using Nat.strong_induction_on generalizing s message bytes with
  | _ n ih =>
    rw [Sha256.absorb]
    by_cases hsize : bytes.length = 0
    · rw [dif_pos hsize, List.eq_nil_of_length_eq_zero hsize, List.append_nil]
      exact h
    rw [dif_neg hsize]
    have hlt := s.buffered_lt
    have hmod := Nat.div_add_mod message.length 64
    have hbuffered := h.buffered
    have hle := s.takes_le bytes
    have hfits := s.buffered_add_takes_le bytes
    have hpos : 0 < s.takes bytes := by
      unfold Sha256.takes
      omega
    have hsplit : message ++ bytes = message ++ bytes.take (s.takes bytes) ++ bytes.drop (s.takes bytes) := by
      rw [List.append_assoc, List.take_append_drop]
    have hlength : (message ++ bytes.take (s.takes bytes)).length = message.length + s.takes bytes := by
      rw [List.length_append, List.length_take, Nat.min_eq_left hle]
    have hshorter : (bytes.drop (s.takes bytes)).length < n := by
      rw [List.length_drop]
      omega
    have hcopied := h.copied_eq hle
    rw [hsplit]
    by_cases hfull : s.buffered + s.takes bytes = 64
    · rw [dif_pos hfull]
      apply ih _ hshorter _ _ rfl
      have hquotient : (message ++ bytes.take (s.takes bytes)).length / 64 = message.length / 64 + 1 := by omega
      have hblock : s.copied bytes (s.takes bytes) =
          ((message ++ bytes.take (s.takes bytes)).drop (64 * (message.length / 64))).take 64 := by
        rw [← hcopied, hfull, List.take_take, Nat.min_self, List.take_of_length_le]
        exact le_of_eq (s.length_copied hle (le_of_eq hfull))
      constructor
      · show compressBlock s.state (s.copied bytes (s.takes bytes)) = _
        rw [compressBlock_eq _ (s.length_copied hle (le_of_eq hfull)), hquotient, hashBlocks_succ,
          hashBlocks_append _ _ _ (Nat.mul_div_le _ _), ← h.state, hblock]
      · show 0 = _
        omega
      · show [] = _
        rw [List.drop_eq_nil_of_le]
        omega
    · rw [dif_neg hfull]
      apply ih _ hshorter _ _ rfl
      have hquotient : (message ++ bytes.take (s.takes bytes)).length / 64 = message.length / 64 := by omega
      constructor
      · show s.state = _
        rw [hquotient, hashBlocks_append _ _ _ (Nat.mul_div_le _ _), h.state]
      · show s.buffered + s.takes bytes = _
        omega
      · show (s.copied bytes (s.takes bytes)).take (s.buffered + s.takes bytes) = _
        rw [hquotient]
        exact hcopied

theorem update (h : Buffers initial s message) (data : List Byte) :
    Buffers initial (s.update data) (message ++ data) := by
  apply absorb
  exact ⟨h.state, h.buffered, h.rest⟩

/-- Whatever is buffered is a message begun with the present state. -/
theorem of_buffered (s : Sha256) : Buffers s.state s (s.buffer.take s.buffered) := by
  have hlength : (s.buffer.take s.buffered).length = s.buffered := by
    rw [List.length_take, s.buffer_size, Nat.min_eq_left s.buffered_lt.le]
  have hquotient : s.buffered / 64 = 0 := Nat.div_eq_of_lt s.buffered_lt
  constructor
  · rw [hlength, hquotient, hashBlocks_zero]
  · rw [hlength, Nat.mod_eq_of_lt s.buffered_lt]
  · rw [hlength, hquotient]
    rfl

/-- The padding loop ends with the first zero that leaves room for the length. -/
theorem padZeros (h : Buffers initial s message) {zeros fuel : ℕ} (hlast : (message.length + zeros) % 64 = 56)
    (hfirst : ∀ n < zeros, (message.length + n) % 64 ≠ 56) (hfuel : zeros < fuel) :
    ∃ s', Sha256.padZeros fuel s = some s' ∧
      Buffers initial s' (message ++ List.replicate zeros 0) := by
  induction zeros generalizing s message fuel with
  | zero =>
    obtain ⟨fuel, rfl⟩ : ∃ n, fuel = n + 1 := ⟨fuel - 1, by omega⟩
    have hbuffered : s.buffered = 56 := h.buffered.trans hlast
    refine ⟨s, ?_, ?_⟩
    · rw [Sha256.padZeros, if_neg (not_not_intro hbuffered)]
    · rw [List.replicate_zero, List.append_nil]
      exact h
  | succ zeros ih =>
    obtain ⟨fuel, rfl⟩ : ∃ n, fuel = n + 1 := ⟨fuel - 1, by omega⟩
    have hbuffered : s.buffered ≠ 56 := by
      rw [h.buffered]
      exact hfirst 0 (Nat.succ_pos _)
    have hlength : (message ++ [0]).length = message.length + 1 := by
      rw [List.length_append, List.length_singleton]
    have hlast' : ((message ++ [0]).length + zeros) % 64 = 56 := by
      rw [hlength, Nat.add_assoc, Nat.add_comm 1]
      exact hlast
    have hfirst' : ∀ n < zeros, ((message ++ [0]).length + n) % 64 ≠ 56 := by
      intro n hn
      rw [hlength, Nat.add_assoc, Nat.add_comm 1]
      exact hfirst (n + 1) (Nat.succ_lt_succ hn)
    obtain ⟨s', hrun, hs'⟩ := ih (h.update [0]) hlast' hfirst' (Nat.lt_of_succ_lt_succ hfuel)
    refine ⟨s', ?_, ?_⟩
    · rw [Sha256.padZeros, if_pos hbuffered]
      exact hrun
    · rw [List.append_assoc, List.singleton_append, ← List.replicate_succ] at hs'
      exact hs'

end Buffers

/-! ## The digest -/

/-- A hash that has taken a message. -/
structure Absorbed (s : Sha256) (message : List Byte) : Prop where
  buffers : Buffers initialHash s message
  total : s.totalBytes = BitVec.ofNat 64 message.length

namespace Sha256

theorem totalBytes_absorb (s : Sha256) (bytes : List Byte) : (s.absorb bytes).totalBytes = s.totalBytes := by
  fun_induction absorb s bytes with
  | case1 => rfl
  | case2 _ _ _ _ ih => exact ih
  | case3 _ _ _ _ ih => exact ih

/-- A byte of a number. -/
theorem setWidth_shift {w : ℕ} (x : BitVec w) (n : ℕ) : (x >>> n).setWidth 8 = x.extractLsb' n 8 := by
  ext i hi
  rw [BitVec.getElem_setWidth, BitVec.getLsbD_ushiftRight, BitVec.getElem_extractLsb']

theorem lengthOf_eq (length : ℕ) : lengthOf (BitVec.ofNat 64 length * 8) = lengthBytes length := by
  have hbits : BitVec.ofNat 64 length * 8 = BitVec.ofNat 64 (8 * length) := by
    rw [Nat.mul_comm, BitVec.ofNat_mul]
    rfl
  unfold lengthOf lengthBytes
  simp only [hbits, setWidth_shift]
  rfl

theorem digestOf_eq (state : Words8) : digestOf state = state.bytes := by
  have hlow : ∀ word : Word, word.setWidth 8 = word.extractLsb' 0 8 := fun word => setWidth_shift word 0
  unfold digestOf
  simp only [setWidth_shift]
  simp only [hlow]
  rfl

/-- Any division of a message into updates leaves the hash with the message. -/
theorem absorbed_updates (chunks : List (List Byte)) : Absorbed (chunks.foldl update {}) chunks.flatten := by
  induction chunks using List.reverseRecOn with
  | nil =>
    refine ⟨⟨initialState_eq, rfl, rfl⟩, rfl⟩
  | append_singleton chunks data ih =>
    rw [List.foldl_append, List.flatten_append, List.flatten_singleton]
    refine ⟨ih.buffers.update data, ?_⟩
    show (absorb _ data).totalBytes = _
    rw [totalBytes_absorb, ih.total, List.length_append, BitVec.ofNat_add]

theorem finish_eq {s : Sha256} {message : List Byte} (h : Absorbed s message) (fuel : ℕ) :
    s.finish (fuel + 64) = some (digest message) := by
  have hterminated := h.buffers.update [0x80]
  have hlength : (message ++ [0x80]).length = message.length + 1 := by
    rw [List.length_append, List.length_singleton]
  have hzeros := zeroCount_spec message.length
  rw [← hlength] at hzeros
  have hfew : zeroCount message.length < fuel + 64 := Nat.lt_add_left fuel (Nat.mod_lt _ (by decide))
  obtain ⟨s', hrun, hs'⟩ := hterminated.padZeros hzeros.1 hzeros.2 hfew
  have hpadded := hs'.update (lengthBytes message.length)
  have hstate : (s'.update (lengthBytes message.length)).state =
      hashBlocks initialHash ((pad message).length / 64) (pad message) := hpadded.state
  unfold finish
  simp only [hrun, Option.map_some, h.total, lengthOf_eq, digestOf_eq, hstate]
  rfl

/-- More steps change nothing once the loop has ended. -/
theorem padZeros_mono {fuel : ℕ} {s s' : Sha256} (h : padZeros fuel s = some s') (more : ℕ) :
    padZeros (fuel + more) s = some s' := by
  induction fuel generalizing s with
  | zero => cases h
  | succ fuel ih =>
    rw [Nat.add_right_comm]
    unfold padZeros at h ⊢
    by_cases hbuffered : s.buffered ≠ 56
    · rw [if_pos hbuffered] at h ⊢
      exact ih h
    · rw [if_neg hbuffered] at h ⊢
      exact h

/-- The padding loop ends, however much is buffered. -/
theorem padZeros_ends (s : Sha256) : ∃ s', ∀ fuel, padZeros (fuel + 64) s = some s' := by
  have hs := Buffers.of_buffered s
  generalize s.buffer.take s.buffered = message at hs
  obtain ⟨zeros, hlast, hfirst, hfew⟩ : ∃ zeros, (message.length + zeros) % 64 = 56 ∧
      (∀ n < zeros, (message.length + n) % 64 ≠ 56) ∧ zeros < 64 := by
    refine ⟨(56 + 64 - message.length % 64) % 64, ?_, ?_, ?_⟩
    · omega
    · intro n hn
      omega
    · exact Nat.mod_lt _ (by decide)
  obtain ⟨s', hrun, -⟩ := hs.padZeros hlast hfirst hfew
  refine ⟨s', fun fuel => ?_⟩
  rw [Nat.add_comm]
  exact padZeros_mono hrun fuel

end Sha256

/-- However a message is cut into updates, `Finish` returns its SHA-256 digest; from any state its
padding loop ends within 64 steps. -/
theorem finish_is_sha256 (chunks : List (List Byte)) (fuel : ℕ) (s : Sha256) :
    (chunks.foldl Sha256.update {}).finish (fuel + 64) = some (digest chunks.flatten) ∧
      ∃ s', ∀ more, Sha256.padZeros (more + 64) s = some s' :=
  ⟨Sha256.finish_eq (Sha256.absorbed_updates chunks) fuel, Sha256.padZeros_ends s⟩

end Repiu.Update
