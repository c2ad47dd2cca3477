import Mathlib.Data.List.Basic
import Mathlib.Data.List.Chain
import Repiu.ByteMemory

/-!
# UTF-8

The encoding of any number in the bit patterns of UTF-8, the texts that are encodings of
characters, and how such a text comes apart at its ASCII bytes.
-/

namespace Repiu.Utf8

/-- A number in one to four bytes, surrogates not excepted. -/
def encode (v : ℕ) : List Byte :=
  if v < 0x80 then [BitVec.ofNat 8 v]
  else if v < 0x800 then [BitVec.ofNat 8 (0xC0 + v / 64), BitVec.ofNat 8 (0x80 + v % 64)]
  else if v < 0x10000 then
    [BitVec.ofNat 8 (0xE0 + v / 4096), BitVec.ofNat 8 (0x80 + v / 64 % 64), BitVec.ofNat 8 (0x80 + v % 64)]
  else
    [BitVec.ofNat 8 (0xF0 + v / 262144), BitVec.ofNat 8 (0x80 + v / 4096 % 64),
      BitVec.ofNat 8 (0x80 + v / 64 % 64), BitVec.ofNat 8 (0x80 + v % 64)]

/-- The characters in UTF-8. -/
def ofChars (chars : List Char) : List Byte := chars.flatMap fun c => encode c.toNat

def WellFormed (bytes : List Byte) : Prop := ∃ chars, ofChars chars = bytes

def Ascii (byte : Byte) : Prop := byte.toNat < 0x80

instance (byte : Byte) : Decidable (Ascii byte) := inferInstanceAs (Decidable (byte.toNat < 0x80))

/-- The code points that are no characters. -/
def Surrogate (v : ℕ) : Prop := 0xD800 ≤ v ∧ v < 0xE000

variable {v : ℕ} {bytes bytes' : List Byte} {byte : Byte}

/-! ## Characters -/

theorem char_lt (c : Char) : c.toNat < 0x110000 := by
  obtain hlow | hhigh := c.valid
  · have : c.toNat < 0xD800 := hlow
    omega
  · exact hhigh.2

theorem char_not_surrogate (c : Char) : ¬Surrogate c.toNat := by
  obtain hlow | hhigh := c.valid
  · have : c.toNat < 0xD800 := hlow
    exact fun h => absurd h.1 (by omega)
  · have : 0xDFFF < c.toNat := hhigh.1
    exact fun h => absurd h.2 (by omega)

theorem exists_char (hv : v < 0x110000) (hsurrogate : ¬Surrogate v) : ∃ c : Char, c.toNat = v := by
  have hvalid : v.isValidChar := by
    unfold Surrogate at hsurrogate
    unfold Nat.isValidChar
    omega
  exact ⟨Char.ofNatAux v hvalid, rfl⟩

/-- `encode` on a character is the encoding of the standard library. -/
theorem encode_char (c : Char) : encode c.toNat = (String.utf8EncodeChar c).map UInt8.toBitVec := by
  have hc := char_lt c
  have hval : c.val.toNat = c.toNat := rfl
  unfold encode String.utf8EncodeChar
  simp only [hval]
  by_cases h1 : c.toNat < 0x80
  · rw [if_pos h1, if_pos (show c.toNat ≤ 0x7f by omega)]
    rfl
  rw [if_neg h1, if_neg (show ¬c.toNat ≤ 0x7f by omega)]
  by_cases h2 : c.toNat < 0x800
  · rw [if_pos h2, if_pos (show c.toNat ≤ 0x7ff by omega), Nat.mod_eq_of_lt (show c.toNat / 64 < 0x20 by omega), Nat.add_comm,
      Nat.add_comm 0x80]
    rfl
  rw [if_neg h2, if_neg (show ¬c.toNat ≤ 0x7ff by omega)]
  by_cases h3 : c.toNat < 0x10000
  · rw [if_pos h3, if_pos (show c.toNat ≤ 0xffff by omega), Nat.mod_eq_of_lt (show c.toNat / 4096 < 0x10 by omega), Nat.add_comm,
      Nat.add_comm 0x80, Nat.add_comm 0x80]
    rfl
  · rw [if_neg h3, if_neg (show ¬c.toNat ≤ 0xffff by omega), Nat.mod_eq_of_lt (show c.toNat / 262144 < 0x08 by omega), Nat.add_comm,
      Nat.add_comm 0x80, Nat.add_comm 0x80, Nat.add_comm 0x80]
    rfl

/-! ## The bytes of an encoding -/

theorem encode_ne_nil : encode v ≠ [] := by
  unfold encode
  split_ifs <;> simp

theorem encode_of_lt (hv : v < 0x80) : encode v = [BitVec.ofNat 8 v] := if_pos hv

/-- An ASCII byte is the whole of an encoding it stands in. -/
theorem encode_eq_singleton (hv : v < 0x110000) (hmem : byte ∈ encode v) (hascii : Ascii byte) :
    encode v = [byte] := by
  unfold Ascii at hascii
  unfold encode at hmem ⊢
  split_ifs at hmem ⊢ with h1 h2 h3 <;> simp only [List.mem_cons, List.not_mem_nil, or_false] at hmem
  · rw [hmem]
  · obtain rfl | rfl := hmem <;> simp only [BitVec.toNat_ofNat] at hascii <;> omega
  · obtain rfl | rfl | rfl := hmem <;> simp only [BitVec.toNat_ofNat] at hascii <;> omega
  · obtain rfl | rfl | rfl | rfl := hmem <;> simp only [BitVec.toNat_ofNat] at hascii <;> omega

/-- What may follow a byte: no second byte of a surrogate stands behind its first. -/
def Follows (a b : Byte) : Prop := a.toNat = 0xED → b.toNat < 0xA0

theorem encode_isChain (hv : v < 0x110000) (hsurrogate : ¬Surrogate v) : (encode v).IsChain Follows := by
  unfold Surrogate at hsurrogate
  unfold encode
  split_ifs with h1 h2 h3 <;> simp only [List.isChain_cons_cons, List.isChain_singleton, and_true, Follows,
    BitVec.toNat_ofNat]
  · omega
  · refine ⟨?_, ?_⟩ <;> omega
  · refine ⟨?_, ?_, ?_⟩ <;> omega

theorem encode_getLast (hv : v < 0x110000) (hlast : byte ∈ (encode v).getLast?) : byte.toNat ≠ 0xED := by
  unfold encode at hlast
  split_ifs at hlast with h1 h2 h3 <;>
    simp only [List.getLast?_cons_cons, List.getLast?_singleton, Option.mem_def, Option.some.injEq] at hlast <;>
    rw [← hlast, BitVec.toNat_ofNat] <;> omega

theorem encode_surrogate (hv : Surrogate v) :
    ∃ second third : Byte, encode v = [0xED, second, third] ∧ 0xA0 ≤ second.toNat := by
  obtain ⟨hlow, hhigh⟩ := hv
  refine ⟨BitVec.ofNat 8 (0x80 + v / 64 % 64), BitVec.ofNat 8 (0x80 + v % 64), ?_, ?_⟩
  · unfold encode
    rw [if_neg (by omega), if_neg (by omega), if_pos (by omega), show v / 4096 = 0xD by omega]
    rfl
  · rw [BitVec.toNat_ofNat]
    omega

/-! ## Well-formed texts -/

@[simp] theorem ofChars_nil : ofChars [] = [] := rfl

@[simp] theorem ofChars_cons (c : Char) (chars : List Char) :
    ofChars (c :: chars) = encode c.toNat ++ ofChars chars := List.flatMap_cons

theorem ofChars_append (chars chars' : List Char) : ofChars (chars ++ chars') = ofChars chars ++ ofChars chars' :=
  List.flatMap_append

theorem wellFormed_ofChars (chars : List Char) : WellFormed (ofChars chars) := ⟨chars, rfl⟩

theorem wellFormed_nil : WellFormed [] := ⟨[], rfl⟩

/-- Well-formed texts are the valid ones of the standard library. -/
theorem wellFormed_iff : WellFormed bytes ↔ (bytes.map UInt8.ofBitVec).toByteArray.IsValidUTF8 := by
  have hencode (chars : List Char) :
      (ofChars chars).map UInt8.ofBitVec = chars.flatMap String.utf8EncodeChar := by
    induction chars with
    | nil => rfl
    | cons c chars ih =>
      rw [ofChars_cons, List.map_append, ih, encode_char, List.map_map, List.flatMap_cons]
      exact congrArg (· ++ _) (List.map_id _)
  constructor
  · rintro ⟨chars, rfl⟩
    exact ⟨chars, by rw [hencode]; rfl⟩
  · rintro ⟨chars, hchars⟩
    have hinjective : Function.Injective UInt8.ofBitVec := fun _ _ h => congrArg UInt8.toBitVec h
    refine ⟨chars, hinjective.list_map ?_⟩
    rw [hencode]
    exact (List.toByteArray_inj.mp hchars).symm

theorem WellFormed.append (h : WellFormed bytes) (h' : WellFormed bytes') : WellFormed (bytes ++ bytes') := by
  obtain ⟨chars, rfl⟩ := h
  obtain ⟨chars', rfl⟩ := h'
  exact ⟨chars ++ chars', ofChars_append chars chars'⟩

theorem wellFormed_encode (hv : v < 0x110000) (hsurrogate : ¬Surrogate v) : WellFormed (encode v) := by
  obtain ⟨c, rfl⟩ := exists_char hv hsurrogate
  exact ⟨[c], by simp⟩

theorem wellFormed_singleton (hascii : Ascii byte) : WellFormed [byte] := by
  have hbyte : encode byte.toNat = [byte] := by
    rw [encode_of_lt hascii, BitVec.ofNat_toNat, BitVec.setWidth_eq]
  have hvalid : ¬Surrogate byte.toNat := fun h => absurd h.1 (by unfold Ascii at hascii; omega)
  rw [← hbyte]
  exact wellFormed_encode (by unfold Ascii at hascii; omega) hvalid

theorem wellFormed_of_ascii (hascii : ∀ byte ∈ bytes, Ascii byte) : WellFormed bytes := by
  induction bytes with
  | nil => exact wellFormed_nil
  | cons byte bytes ih =>
    have hrest := ih fun byte hmem => hascii byte (List.mem_cons_of_mem _ hmem)
    exact (wellFormed_singleton (hascii byte List.mem_cons_self)).append hrest

/-- A well-formed text comes apart at an ASCII byte. -/
theorem WellFormed.split (h : WellFormed (bytes ++ byte :: bytes')) (hascii : Ascii byte) :
    WellFormed bytes ∧ WellFormed bytes' := by
  obtain ⟨chars, hchars⟩ := h
  induction chars generalizing bytes with
  | nil => simp at hchars
  | cons c chars ih =>
    rw [ofChars_cons] at hchars
    obtain ⟨between, rfl, hmore⟩ | ⟨between, hc, hmore⟩ := List.append_eq_append_iff.mp hchars
    · obtain ⟨hbetween, hrest⟩ := ih hmore
      exact ⟨(wellFormed_encode (char_lt c) (char_not_surrogate c)).append hbetween, hrest⟩
    cases between with
    | nil =>
      rw [List.append_nil] at hc
      have hrest := ih (show ofChars chars = [] ++ byte :: bytes' from hmore.symm)
      exact ⟨hc ▸ wellFormed_encode (char_lt c) (char_not_surrogate c), hrest.2⟩
    | cons first between =>
      -- The byte stands in the encoding of `c`, which is no longer than it.
      obtain ⟨rfl, rfl⟩ := List.cons.inj hmore
      have hsingle := encode_eq_singleton (char_lt c) (hc ▸ List.mem_append_right _ List.mem_cons_self) hascii
      rw [hc] at hsingle
      have hbytes : bytes = [] := by
        cases bytes with
        | nil => rfl
        | cons _ _ => simp at hsingle
      subst hbytes
      have hbetween : between = [] := (List.cons.inj hsingle).2
      exact ⟨wellFormed_nil, chars, by rw [hbetween]; rfl⟩

theorem WellFormed.tail (h : WellFormed (byte :: bytes)) (hascii : Ascii byte) : WellFormed bytes := by
  have hsplit : WellFormed ([] ++ byte :: bytes) := h
  exact (hsplit.split hascii).2

theorem WellFormed.of_ascii_append (hascii : ∀ byte ∈ bytes, Ascii byte) (h : WellFormed (bytes ++ bytes')) :
    WellFormed bytes' := by
  induction bytes with
  | nil => exact h
  | cons byte bytes ih =>
    exact ih (fun byte hmem => hascii byte (List.mem_cons_of_mem _ hmem)) (h.tail (hascii byte List.mem_cons_self))

theorem WellFormed.of_append_ascii (hascii : ∀ byte ∈ bytes', Ascii byte) (h : WellFormed (bytes ++ bytes')) :
    WellFormed bytes := by
  cases bytes' with
  | nil => rwa [List.append_nil] at h
  | cons byte bytes' => exact (h.split (hascii byte List.mem_cons_self)).1

theorem WellFormed.isChain (h : WellFormed bytes) : bytes.IsChain Follows := by
  obtain ⟨chars, rfl⟩ := h
  induction chars with
  | nil => exact List.IsChain.nil
  | cons c chars ih =>
    rw [ofChars_cons, List.isChain_append]
    refine ⟨encode_isChain (char_lt c) (char_not_surrogate c), ih, ?_⟩
    intro last hlast _ _ hsecond
    exact absurd hsecond (encode_getLast (char_lt c) hlast)

/-- No well-formed text has a surrogate in it. -/
theorem not_wellFormed_of_surrogate (hv : Surrogate v) : ¬WellFormed (bytes ++ (encode v ++ bytes')) := by
  intro h
  obtain ⟨second, third, hencode, hsecond⟩ := encode_surrogate hv
  have hchain := (List.isChain_append.mp h.isChain).2.1
  rw [hencode] at hchain
  simp only [List.cons_append, List.isChain_cons_cons] at hchain
  have : second.toNat < 0xA0 := hchain.1 rfl
  omega

end Repiu.Utf8
