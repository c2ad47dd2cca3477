import Mathlib.Data.List.TakeWhile
import Repiu.Update.JsonDialect

/-!
# Tokens of the reader

The functions of `JsonParser` below `ParseValue` read exactly what the dialect has for them, and each
of their loops ends.
-/

namespace Repiu.Update

open Json Utf8

variable {α : Type} {v : ℕ} {byte expected : Byte} {space text rest out bytes units : List Byte}

/-! ## Space -/

instance (byte : Byte) : Decidable (IsSpace byte) :=
  inferInstanceAs (Decidable (byte = 0x20 ∨ byte = 0x09 ∨ byte = 0x0A ∨ byte = 0x0D))

theorem skipSpace_eq (text : List Byte) : skipSpace text = text.dropWhile (fun byte => IsSpace byte) := by
  unfold skipSpace IsSpace
  refine congrArg (fun p => text.dropWhile p) (funext fun character => ?_)
  exact decide_eq_decide.mpr (by tauto)

theorem skipSpace_append (hspace : Space space) : skipSpace (space ++ text) = skipSpace text := by
  rw [skipSpace_eq, skipSpace_eq, List.dropWhile_append_of_pos]
  exact fun byte hmem => decide_eq_true (hspace byte hmem)

theorem skipSpace_cons (hbyte : ¬IsSpace byte) : skipSpace (byte :: text) = byte :: text := by
  rw [skipSpace_eq, List.dropWhile_cons_of_neg]
  simpa using hbyte

theorem skipSpace_spec (text : List Byte) : ∃ space, Space space ∧ text = space ++ skipSpace text := by
  rw [skipSpace_eq]
  refine ⟨text.takeWhile (fun byte => IsSpace byte), fun byte hmem => ?_, List.takeWhile_append_dropWhile.symm⟩
  simpa using List.mem_takeWhile_imp hmem

theorem space_nil : Space [] := fun _ hmem => absurd hmem List.not_mem_nil

theorem consume_space (hspace : Space space) (hbyte : ¬IsSpace byte) :
    consume expected (space ++ byte :: rest) = if byte = expected then (true, rest) else (false, byte :: rest) := by
  unfold consume
  rw [skipSpace_append hspace, skipSpace_cons hbyte]

theorem consume_true (h : consume expected text = (true, rest)) :
    ∃ space, Space space ∧ text = space ++ expected :: rest := by
  obtain ⟨space, hspace, htext⟩ := skipSpace_spec text
  refine ⟨space, hspace, ?_⟩
  rw [htext]
  unfold consume at h
  split at h
  · simp at h
  · next character after hskip =>
    split_ifs at h with hcharacter
    · rw [hskip, hcharacter, (Prod.mk.inj h).2]
    · simp at h

theorem consume_false (h : consume expected text = (false, rest)) : ∃ space, Space space ∧ text = space ++ rest := by
  obtain ⟨space, hspace, htext⟩ := skipSpace_spec text
  refine ⟨space, hspace, ?_⟩
  rw [htext]
  unfold consume at h
  split at h
  · next hskip => rw [hskip, (Prod.mk.inj h).2]
  · next character after hskip =>
    split_ifs at h
    · simp at h
    · rw [hskip, (Prod.mk.inj h).2]

theorem consumeWord_append (word : List Byte) : consumeWord word (word ++ rest) = (true, rest) := by
  unfold consumeWord
  rw [List.take_left, if_neg (not_not_intro rfl), List.drop_left]

theorem consumeWord_true {word : List Byte} (h : consumeWord word text = (true, rest)) : text = word ++ rest := by
  unfold consumeWord at h
  by_cases hword : text.take word.length = word
  · rw [if_neg (not_not_intro hword)] at h
    rw [← (Prod.mk.inj h).2]
    calc text = text.take word.length ++ text.drop word.length := (List.take_append_drop _ _).symm
      _ = word ++ text.drop word.length := by rw [hword]
  · rw [if_pos hword] at h
    simp at h

/-! ## Escapes -/

/-- `AppendUtf8` encodes. -/
theorem appendUtf8_eq (hv : v < 0x200000) : appendUtf8 v out = out ++ encode v := by
  have hand : v &&& 0x3F = v % 64 := Nat.and_two_pow_sub_one_eq_mod v 6
  have hand6 : v >>> 6 &&& 0x3F = v / 64 % 64 := by
    rw [Nat.shiftRight_eq_div_pow]
    exact Nat.and_two_pow_sub_one_eq_mod _ 6
  have hand12 : v >>> 12 &&& 0x3F = v / 4096 % 64 := by
    rw [Nat.shiftRight_eq_div_pow]
    exact Nat.and_two_pow_sub_one_eq_mod _ 6
  have htail (x : ℕ) : 0x80 ||| x % 64 = 0x80 + x % 64 :=
    (Nat.two_pow_add_eq_or_of_lt (show x % 64 < 2 ^ 6 by omega) 2).symm
  unfold appendUtf8 encode
  simp only [hand, hand6, hand12, htail]
  simp only [Nat.shiftRight_eq_div_pow]
  split_ifs with h1 h2 h3
  · rfl
  · rw [show 0xC0 ||| v / 2 ^ 6 = 0xC0 + v / 64 from
      (Nat.two_pow_add_eq_or_of_lt (show v / 64 < 2 ^ 6 by omega) 3).symm]
  · rw [show 0xE0 ||| v / 2 ^ 12 = 0xE0 + v / 4096 from
      (Nat.two_pow_add_eq_or_of_lt (show v / 4096 < 2 ^ 5 by omega) 7).symm]
  · rw [show 0xF0 ||| v / 2 ^ 18 = 0xF0 + v / 262144 from
      (Nat.two_pow_add_eq_or_of_lt (show v / 262144 < 2 ^ 4 by omega) 15).symm]

theorem digitOf_sixteen (character : Byte) : digitOf 16 character = hexDigit character := by
  unfold digitOf hexDigit
  have := character.isLt
  dsimp only
  split_ifs <;> first | rfl | omega

/-- Where no character is left over, each is a digit. -/
theorem digitOf_of_leadingDigits {base : ℕ} (h : (leadingDigits base text).2 = []) :
    ∀ character ∈ text, ∃ digit, digitOf base character = some digit := by
  induction text with
  | nil => exact fun _ hmem => absurd hmem List.not_mem_nil
  | cons character text ih =>
    rw [leadingDigits] at h
    cases hdigit : digitOf base character with
    | none =>
      rw [hdigit] at h
      simp at h
    | some digit =>
      rw [hdigit] at h
      exact List.forall_mem_cons.mpr ⟨⟨digit, hdigit⟩, ih h⟩

theorem fromChars_hex {a b c d : Byte} : fromChars 16 (2 ^ 32) [a, b, c, d] = some (v, []) ↔ Hex4 v [a, b, c, d] := by
  have hhex (w x y z : ℕ) (ha : hexDigit a = some w) (hb : hexDigit b = some x) (hc : hexDigit c = some y)
      (hd : hexDigit d = some z) :
      fromChars 16 (2 ^ 32) [a, b, c, d] = some (((w * 16 + x) * 16 + y) * 16 + z, []) := by
    have hlt := (Hex4.digits ha hb hc hd).lt
    simp only [fromChars, leadingDigits, digitOf_sixteen, ha, hb, hc, hd, List.foldl_cons, List.foldl_nil, Nat.zero_mul,
      Nat.zero_add, reduceCtorEq, false_or]
    rw [if_neg (by omega)]
  constructor
  · intro h
    have hrest : (leadingDigits 16 [a, b, c, d]).2 = [] := by
      unfold fromChars at h
      dsimp only at h
      split_ifs at h
      exact (Prod.mk.inj (Option.some.inj h)).2
    have hdigits := digitOf_of_leadingDigits hrest
    simp only [List.forall_mem_cons, digitOf_sixteen] at hdigits
    obtain ⟨⟨w, ha⟩, ⟨x, hb⟩, ⟨y, hc⟩, ⟨z, hd⟩, -⟩ := hdigits
    rw [hhex w x y z ha hb hc hd, Option.some.injEq, Prod.mk.injEq] at h
    rw [← h.1]
    exact .digits ha hb hc hd
  · intro h
    cases h with
    | digits ha hb hc hd => exact hhex _ _ _ _ ha hb hc hd

/-- `ReadHex4` reads four digits. -/
theorem readHex4_append {digits : List Byte} (h : Hex4 v digits) : readHex4 (digits ++ rest) = .ok v rest := by
  cases h with
  | digits ha hb hc hd =>
    rename_i a b c d w x y z
    have hchars := fromChars_hex.mpr (Hex4.digits ha hb hc hd)
    unfold readHex4
    rw [if_neg (by simp), show List.take 4 ([a, b, c, d] ++ rest) = [a, b, c, d] from rfl, hchars]
    rfl

theorem readHex4_ok (h : readHex4 text = .ok v rest) : ∃ digits, Hex4 v digits ∧ text = digits ++ rest := by
  unfold readHex4 at h
  split_ifs at h with hlength
  match text, hlength with
  | a :: b :: c :: d :: tail, _ =>
    rw [show List.take 4 (a :: b :: c :: d :: tail) = [a, b, c, d] from rfl] at h
    split at h
    · next parsed hchars =>
      obtain ⟨rfl, rfl⟩ := Reading.ok.inj h
      exact ⟨[a, b, c, d], fromChars_hex.mp hchars, rfl⟩
    · simp at h
  | [_, _, _], h' | [_, _], h' | [_], h' | [], h' => simp at h'

theorem readHex4_ne_unfinished : readHex4 text ≠ .unfinished := by
  unfold readHex4
  split_ifs
  · simp
  · split <;> simp

/-- The case `'u'` reads the code points of the dialect. -/
theorem readCodePoint_append (h : CodePointText (fun v => ¬HighSurrogate v) v text) :
    readCodePoint (text ++ rest) = .ok v rest := by
  unfold readCodePoint
  cases h with
  | single h hv =>
    rw [readHex4_append h, Reading.ok_bind, if_neg (show ¬(0xD800 ≤ v ∧ v < 0xDC00) from hv)]
  | @pair high low digits digits' h h' hhigh hlow =>
    have hlow' : ¬(low < 0xDC00 ∨ 0xE000 ≤ low) := by
      unfold LowSurrogate at hlow
      omega
    rw [List.append_assoc, readHex4_append h, Reading.ok_bind,
      if_pos (show 0xD800 ≤ high ∧ high < 0xDC00 from hhigh)]
    rw [show 0x5C :: 0x75 :: digits' ++ rest = [0x5C, 0x75] ++ (digits' ++ rest) from rfl, consumeWord_append]
    dsimp only
    rw [readHex4_append h', Reading.ok_bind, if_neg hlow', Nat.shiftLeft_eq]
    rfl

theorem readCodePoint_ok (h : readCodePoint text = .ok v rest) :
    ∃ front, CodePointText (fun v => ¬HighSurrogate v) v front ∧ text = front ++ rest := by
  obtain ⟨codePoint, text', hread, hnext⟩ := Reading.bind_eq_ok.mp h
  obtain ⟨digits, hdigits, rfl⟩ := readHex4_ok hread
  split_ifs at hnext with hhigh
  · split at hnext
    · simp at hnext
    · next text'' hword =>
      obtain rfl := consumeWord_true hword
      obtain ⟨low, tail, hread', hlast⟩ := Reading.bind_eq_ok.mp hnext
      obtain ⟨digits', hdigits', rfl⟩ := readHex4_ok hread'
      split_ifs at hlast with hlow
      obtain ⟨rfl, rfl⟩ := Reading.ok.inj hlast
      refine ⟨digits ++ 0x5C :: 0x75 :: digits', ?_, by simp⟩
      rw [Nat.shiftLeft_eq]
      exact .pair hdigits hdigits' hhigh ⟨by omega, by omega⟩
  · obtain ⟨rfl, rfl⟩ := Reading.ok.inj hnext
    exact ⟨digits, .single hdigits hhigh, rfl⟩

theorem readCodePoint_ne_unfinished : readCodePoint text ≠ .unfinished := by
  refine Reading.bind_ne_unfinished readHex4_ne_unfinished fun codePoint rest _ => ?_
  split_ifs
  · split
    · simp
    · refine Reading.bind_ne_unfinished readHex4_ne_unfinished fun low rest _ => ?_
      split_ifs <;> simp
  · simp

/-! ## Strings -/

/-- The switch reads one escape of the dialect. -/
theorem readEscape_append {unit front : List Byte}
    (h : UnitText (fun v => ¬HighSurrogate v) unit (0x5C :: byte :: front)) :
    readEscape byte out (front ++ rest) = .ok (out ++ unit) rest := by
  cases h with
  | short h =>
    simp only [shortEscapes, List.mem_cons, List.not_mem_nil, or_false, Prod.mk.injEq] at h
    obtain ⟨rfl, rfl⟩ | ⟨rfl, rfl⟩ | ⟨rfl, rfl⟩ | ⟨rfl, rfl⟩ | ⟨rfl, rfl⟩ | ⟨rfl, rfl⟩ | ⟨rfl, rfl⟩ | ⟨rfl, rfl⟩ := h <;>
      rfl
  | hex h =>
    have hswitch : readEscape 0x75 out (front ++ rest) =
        (readCodePoint (front ++ rest)).map fun codePoint => appendUtf8 codePoint out := rfl
    rw [hswitch, readCodePoint_append h, Reading.ok_map, appendUtf8_eq (h.lt.trans (by decide))]

theorem readEscape_ok (h : readEscape byte out text = .ok bytes rest) :
    ∃ unit front, UnitText (fun v => ¬HighSurrogate v) unit (0x5C :: byte :: front) ∧ bytes = out ++ unit ∧
      text = front ++ rest := by
  have hshort (code : Byte) (hmem : (byte, code) ∈ shortEscapes) (h : Reading.ok (out ++ [code]) text = .ok bytes rest) :
      ∃ unit front, UnitText (fun v => ¬HighSurrogate v) unit (0x5C :: byte :: front) ∧ bytes = out ++ unit ∧
        text = front ++ rest := by
    obtain ⟨rfl, rfl⟩ := Reading.ok.inj h
    exact ⟨[code], [], .short hmem, rfl, rfl⟩
  unfold readEscape at h
  split_ifs at h with hself hb hf hn hr ht hu
  · exact hshort byte (by obtain rfl | rfl | rfl := hself <;> decide) h
  · exact hshort 0x08 (by rw [hb]; decide) h
  · exact hshort 0x0C (by rw [hf]; decide) h
  · exact hshort 0x0A (by rw [hn]; decide) h
  · exact hshort 0x0D (by rw [hr]; decide) h
  · exact hshort 0x09 (by rw [ht]; decide) h
  · obtain ⟨v, hread, hbytes⟩ := Reading.map_eq_ok.mp h
    obtain ⟨front, hfront, rfl⟩ := readCodePoint_ok hread
    refine ⟨encode v, front, hu ▸ .hex hfront, ?_, rfl⟩
    rw [← hbytes, appendUtf8_eq (hfront.lt.trans (by decide))]

theorem readEscape_ne_unfinished : readEscape byte out text ≠ .unfinished := by
  unfold readEscape
  split_ifs
  case pos => simp
  all_goals first | exact Reading.map_ne_unfinished readCodePoint_ne_unfinished | simp

theorem parseStringLoop_cons (rounds : ℕ) (character : Byte) :
    parseStringLoop (rounds + 1) out (character :: text) =
      if character = 0x22 then .ok out text
      else if character.toNat < 0x20 then .failed text
      else if character ≠ 0x5C then parseStringLoop rounds (out ++ [character]) text
      else
        match text with
        | [] => .failed []
        | escape :: text => (readEscape escape out text).bind fun out text => parseStringLoop rounds out text := rfl

/-- One round of the loop. -/
theorem parseStringLoop_unit {unit : List Byte} (rounds : ℕ) (h : UnitText (fun v => ¬HighSurrogate v) unit text) :
    parseStringLoop (rounds + 1) out (text ++ rest) = parseStringLoop rounds (out ++ unit) rest := by
  cases h with
  | @raw character hcontrol hquote hescape =>
    rw [List.cons_append, List.nil_append, parseStringLoop_cons, if_neg hquote, if_neg (by omega), if_pos hescape]
  | @short letter code h =>
    have hround : parseStringLoop (rounds + 1) out (0x5C :: letter :: rest) =
        (readEscape letter out rest).bind fun out text => parseStringLoop rounds out text := rfl
    have hread : readEscape letter out ([] ++ rest) = .ok (out ++ [code]) rest := readEscape_append (.short h)
    rw [List.nil_append] at hread
    rw [show [0x5C, letter] ++ rest = 0x5C :: letter :: rest from rfl, hround, hread, Reading.ok_bind]
  | @hex v digits h =>
    have hround : parseStringLoop (rounds + 1) out (0x5C :: 0x75 :: (digits ++ rest)) =
        (readEscape 0x75 out (digits ++ rest)).bind fun out text => parseStringLoop rounds out text := rfl
    rw [show 0x5C :: 0x75 :: digits ++ rest = 0x5C :: 0x75 :: (digits ++ rest) from rfl, hround,
      readEscape_append (.hex h), Reading.ok_bind]

theorem UnitText.length_pos {lone : ℕ → Prop} (h : UnitText lone bytes text) : 0 < text.length := by
  cases h <;> simp

theorem parseStringLoop_append (h : UnitsText (fun v => ¬HighSurrogate v) units text) {rounds : ℕ}
    (hrounds : text.length < rounds) :
    parseStringLoop rounds out (text ++ 0x22 :: rest) = .ok (out ++ units) rest := by
  induction h generalizing rounds out with
  | nil =>
    obtain ⟨rounds, rfl⟩ := Nat.exists_eq_add_one.mpr (Nat.zero_lt_of_lt hrounds)
    rw [List.append_nil]
    rfl
  | cons h _ ih =>
    obtain ⟨rounds, rfl⟩ := Nat.exists_eq_add_one.mpr (Nat.zero_lt_of_lt hrounds)
    have hlength := h.length_pos
    rw [List.length_append] at hrounds
    rw [List.append_assoc, parseStringLoop_unit rounds h, ih (by omega), List.append_assoc]

theorem parseStringLoop_ok {rounds : ℕ} (h : parseStringLoop rounds out text = .ok bytes rest) :
    ∃ units front, UnitsText (fun v => ¬HighSurrogate v) units front ∧ bytes = out ++ units ∧
      text = front ++ 0x22 :: rest := by
  induction rounds generalizing out text with
  | zero => simp [parseStringLoop] at h
  | succ rounds ih =>
    -- What the round reads, and what the later ones do.
    have hround {unit front tail : List Byte} (hunit : UnitText (fun v => ¬HighSurrogate v) unit front)
        (htail : parseStringLoop rounds (out ++ unit) tail = .ok bytes rest) :
        ∃ units front', UnitsText (fun v => ¬HighSurrogate v) units front' ∧ bytes = out ++ units ∧
          front ++ tail = front' ++ 0x22 :: rest := by
      obtain ⟨units, front', hunits, rfl, rfl⟩ := ih htail
      exact ⟨unit ++ units, front ++ front', .cons hunit hunits, List.append_assoc .., by rw [List.append_assoc]⟩
    match text with
    | [] => simp [parseStringLoop] at h
    | character :: text =>
      rw [parseStringLoop_cons] at h
      split_ifs at h with hquote hcontrol hescape
      · obtain ⟨rfl, rfl⟩ := Reading.ok.inj h
        exact ⟨[], [], .nil, (List.append_nil _).symm, by rw [hquote]; rfl⟩
      · exact hround (.raw (not_lt.mp hcontrol) hquote hescape) h
      · obtain rfl := not_not.mp hescape
        match text with
        | [] => simp at h
        | escape :: text =>
          obtain ⟨out', text', hread, hnext⟩ := Reading.bind_eq_ok.mp h
          obtain ⟨unit, front, hunit, rfl, rfl⟩ := readEscape_ok hread
          exact hround hunit hnext

theorem parseStringLoop_ne_unfinished {rounds : ℕ} (hrounds : text.length < rounds) :
    parseStringLoop rounds out text ≠ .unfinished := by
  induction rounds generalizing out text with
  | zero => exact absurd hrounds (Nat.not_lt_zero _)
  | succ rounds ih =>
    match text with
    | [] => simp [parseStringLoop]
    | character :: text =>
      rw [List.length_cons] at hrounds
      rw [parseStringLoop_cons]
      split_ifs with hquote hcontrol hescape
      · simp
      · simp
      · exact ih (by omega)
      · match text with
        | [] => simp
        | escape :: text =>
          refine Reading.bind_ne_unfinished readEscape_ne_unfinished fun out' text' hread => ih ?_
          obtain ⟨unit, front, -, -, rfl⟩ := readEscape_ok hread
          rw [List.length_cons, List.length_append] at hrounds
          omega

theorem parseString_append (hspace : Space space) (h : UnitsText (fun v => ¬HighSurrogate v) units text) :
    parseString (space ++ 0x22 :: (text ++ 0x22 :: rest)) = .ok units rest := by
  have hrounds : text.length < (text ++ 0x22 :: rest).length + 1 := by
    rw [List.length_append]
    omega
  have hloop : parseStringLoop ((text ++ 0x22 :: rest).length + 1) [] (text ++ 0x22 :: rest) = .ok ([] ++ units) rest :=
    parseStringLoop_append h hrounds
  unfold parseString
  rw [consume_space hspace (by decide), if_pos rfl]
  exact hloop

theorem parseString_ok (h : parseString text = .ok bytes rest) :
    ∃ space front, Space space ∧ UnitsText (fun v => ¬HighSurrogate v) bytes front ∧
      text = space ++ 0x22 :: (front ++ 0x22 :: rest) := by
  unfold parseString at h
  split at h
  · simp at h
  · next text' hquote =>
    obtain ⟨space, hspace, rfl⟩ := consume_true hquote
    obtain ⟨units, front, hunits, rfl, rfl⟩ := parseStringLoop_ok h
    exact ⟨space, front, hspace, hunits, rfl⟩

theorem parseString_ne_unfinished : parseString text ≠ .unfinished := by
  unfold parseString
  split
  · simp
  · exact parseStringLoop_ne_unfinished (Nat.lt_succ_self _)

/-! ## Numbers -/

/-- What may follow a number: `ParseNumber` does not read on. -/
def Ends (rest : List Byte) : Prop := ∀ character ∈ rest.head?, ¬isNumberCharacter character

theorem ends_cons (hbyte : ¬isNumberCharacter byte) : Ends (byte :: rest) := by
  intro character hmem
  rwa [← Option.some.inj hmem]

theorem IsSpace.not_number (h : IsSpace byte) : ¬isNumberCharacter byte := by
  obtain rfl | rfl | rfl | rfl := h <;> decide

theorem Ends.append_space (h : Ends rest) (hspace : Space space) : Ends (space ++ rest) := by
  cases space with
  | nil => exact h
  | cons byte space => exact ends_cons (IsSpace.not_number (hspace byte List.mem_cons_self))

theorem parseNumber_append {literal : List Byte} (hne : literal ≠ [])
    (h : ∀ character ∈ literal, isNumberCharacter character) (hends : Ends rest) :
    parseNumber (literal ++ rest) = .ok literal rest := by
  have hrest : rest.takeWhile isNumberCharacter = [] ∧ rest.dropWhile isNumberCharacter = rest := by
    cases rest with
    | nil => exact ⟨rfl, rfl⟩
    | cons character rest =>
      have hcharacter := hends character rfl
      exact ⟨List.takeWhile_cons_of_neg hcharacter, List.dropWhile_cons_of_neg hcharacter⟩
  unfold parseNumber
  rw [List.takeWhile_append_of_pos h, hrest.1, List.append_nil]
  split
  · exact absurd rfl hne
  · rw [List.dropWhile_append_of_pos h, hrest.2]

theorem parseNumber_ok {literal : List Byte} (h : parseNumber text = .ok literal rest) :
    literal ≠ [] ∧ (∀ character ∈ literal, isNumberCharacter character) ∧ text = literal ++ rest := by
  unfold parseNumber at h
  split at h
  · simp at h
  · next hne =>
    obtain ⟨rfl, rfl⟩ := Reading.ok.inj h
    exact ⟨fun hnil => hne hnil, fun _ hmem => List.mem_takeWhile_imp hmem, List.takeWhile_append_dropWhile.symm⟩

theorem parseNumber_ne_unfinished : parseNumber text ≠ .unfinished := by
  unfold parseNumber
  split <;> simp

end Repiu.Update
