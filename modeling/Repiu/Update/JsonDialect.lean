import Repiu.Update.JsonParser

/-!
# What the reader takes for JSON

The grammar of the texts that `JsonParser` accepts: a string may escape a surrogate by itself where
`lone` allows it, and a number is any run of the characters of numbers.
-/

namespace Repiu.Update

open Json Utf8

variable {lone lone' : ℕ → Prop} {v : ℕ} {c : Char} {unit text bytes bytes' : List Byte}

/-- The code points behind `\\u`: a number by itself where `lone` allows it, or a surrogate pair. -/
inductive CodePointText (lone : ℕ → Prop) : ℕ → List Byte → Prop
  | single {v : ℕ} {digits : List Byte} (h : Hex4 v digits) (hv : lone v) : CodePointText lone v digits
  | pair {high low : ℕ} {digits digits' : List Byte} (h : Hex4 high digits) (h' : Hex4 low digits')
      (hhigh : HighSurrogate high) (hlow : LowSurrogate low) :
      CodePointText lone (pairValue high low) (digits ++ 0x5C :: 0x75 :: digits')

/-- The bytes that a character or an escape stands for. -/
inductive UnitText (lone : ℕ → Prop) : List Byte → List Byte → Prop
  | raw {character : Byte} (hcontrol : 0x20 ≤ character.toNat) (hquote : character ≠ 0x22)
      (hescape : character ≠ 0x5C) : UnitText lone [character] [character]
  | short {letter code : Byte} (h : (letter, code) ∈ shortEscapes) : UnitText lone [code] [0x5C, letter]
  | hex {v : ℕ} {text : List Byte} (h : CodePointText lone v text) : UnitText lone (encode v) (0x5C :: 0x75 :: text)

/-- The bytes that the inside of a string stands for. -/
inductive UnitsText (lone : ℕ → Prop) : List Byte → List Byte → Prop
  | nil : UnitsText lone [] []
  | cons {unit units text rest : List Byte} (h : UnitText lone unit text) (hrest : UnitsText lone units rest) :
      UnitsText lone (unit ++ units) (text ++ rest)

def dialect (lone : ℕ → Prop) : Lexemes (List Byte) (List Byte) where
  number literal text := text = literal ∧ literal ≠ [] ∧ ∀ character ∈ literal, isNumberCharacter character
  string := UnitsText lone

/-- A high surrogate needs its low one. -/
def looseDialect : Lexemes (List Byte) (List Byte) := dialect fun v => ¬HighSurrogate v

/-- No surrogate stands alone. -/
def pairedDialect : Lexemes (List Byte) (List Byte) := dialect fun v => ¬Surrogate v

/-! ## Code points -/

theorem CodePointText.mono (h : CodePointText lone v text) (hlone : ∀ v, lone v → lone' v) :
    CodePointText lone' v text := by
  cases h with
  | single h hv => exact .single h (hlone _ hv)
  | pair h h' hhigh hlow => exact .pair h h' hhigh hlow

theorem CodePointText.lt (h : CodePointText lone v text) : v < 0x110000 := by
  cases h with
  | single h _ => exact h.lt.trans (by decide)
  | pair _ _ hhigh hlow => exact (pairValue_char hhigh hlow).1

theorem CodePointText.ascii (h : CodePointText lone v text) : ∀ byte ∈ text, Ascii byte := by
  cases h with
  | single h _ => exact h.ascii
  | pair h h' _ _ =>
    refine List.forall_mem_append.mpr ⟨h.ascii, List.forall_mem_cons.mpr ⟨by decide, ?_⟩⟩
    exact List.forall_mem_cons.mpr ⟨by decide, h'.ascii⟩

/-- Surrogates are what pairing rules out. -/
theorem CodePointText.paired_iff :
    CodePointText (fun v => ¬Surrogate v) v text ↔
      CodePointText (fun v => ¬HighSurrogate v) v text ∧ ¬Surrogate v := by
  constructor
  · intro h
    refine ⟨h.mono fun v hv hhigh => hv hhigh.surrogate, ?_⟩
    cases h with
    | single _ hv => exact hv
    | pair _ _ hhigh hlow => exact (pairValue_char hhigh hlow).2
  · rintro ⟨h, hv⟩
    cases h with
    | single h _ => exact .single h hv
    | pair h h' hhigh hlow => exact .pair h h' hhigh hlow

/-! ## RFC 8259 -/

theorem UnitsText.append (h : UnitsText lone unit text) (h' : UnitsText lone bytes bytes') :
    UnitsText lone (unit ++ bytes) (text ++ bytes') := by
  induction h with
  | nil => exact h'
  | cons h _ ih =>
    rw [List.append_assoc, List.append_assoc]
    exact .cons h ih

theorem UnitText.units (h : UnitText lone unit text) : UnitsText lone unit text := by
  have := UnitsText.cons h .nil
  rwa [List.append_nil, List.append_nil] at this

theorem unitsText_raw (h : ∀ byte ∈ bytes, 0x20 ≤ byte.toNat ∧ byte ≠ 0x22 ∧ byte ≠ 0x5C) :
    UnitsText lone bytes bytes := by
  induction bytes with
  | nil => exact .nil
  | cons byte bytes ih =>
    obtain ⟨⟨hcontrol, hquote, hescape⟩, hrest⟩ := List.forall_mem_cons.mp h
    exact .cons (.raw hcontrol hquote hescape) (ih hrest)

theorem unitsText_char (hlone : ∀ v, ¬Surrogate v → lone v) (h : CharText c text) :
    UnitsText lone (encode c.toNat) text := by
  cases h with
  | unescaped hcontrol hquote hescape =>
    refine unitsText_raw fun byte hmem => ?_
    by_cases hascii : Ascii byte
    · -- The only byte of its character.
      have hc : c.toNat = byte.toNat := by
        have hsingle := encode_eq_singleton (char_lt c) hmem hascii
        have hlt : c.toNat < 0x80 := by
          by_contra hge
          unfold encode at hsingle
          split_ifs at hsingle
          all_goals simp at hsingle
        rw [encode_of_lt hlt, List.cons.injEq] at hsingle
        rw [← hsingle.1, BitVec.toNat_ofNat]
        omega
      rw [hc] at hcontrol hquote hescape
      exact ⟨hcontrol, fun h => hquote (by rw [h]; rfl), fun h => hescape (by rw [h]; rfl)⟩
    · unfold Ascii at hascii
      refine ⟨by omega, ?_, ?_⟩ <;> rintro rfl <;> exact absurd (by decide) hascii
  | short h hc =>
    rename_i letter code
    have hcode : encode c.toNat = [code] := by
      rw [hc, encode_of_lt (shortEscapes_ascii _ h).2, BitVec.ofNat_toNat, BitVec.setWidth_eq]
    rw [hcode]
    exact (UnitText.short h).units
  | hex h => exact (UnitText.hex (.single h (hlone _ (char_not_surrogate c)))).units
  | pair h h' hhigh hlow hc =>
    rw [hc]
    exact (UnitText.hex (.pair h h' hhigh hlow)).units

theorem unitsText_string {chars : List Char} (hlone : ∀ v, ¬Surrogate v → lone v) (h : StringText chars text) :
    UnitsText lone (ofChars chars) text := by
  induction h with
  | nil => exact .nil
  | cons h _ ih =>
    rw [ofChars_cons]
    exact (unitsText_char hlone h).append ih

theorem digits_characters (h : Digits bytes) : ∀ character ∈ bytes, isNumberCharacter character := by
  intro character hmem
  obtain ⟨hlow, hhigh⟩ := h character hmem
  simp [isNumberCharacter, hlow, hhigh]

theorem numberText_characters (h : NumberText text) :
    text ≠ [] ∧ ∀ character ∈ text, isNumberCharacter character := by
  cases h with
  | parts hminus hint hfrac hexp =>
    rename_i minus int frac exp
    have hminus' : ∀ character ∈ minus, isNumberCharacter character := by
      obtain rfl | rfl := hminus <;> decide
    have hint' : int ≠ [] ∧ ∀ character ∈ int, isNumberCharacter character := by
      cases hint with
      | zero => decide
      | digits hfirst _ h =>
        refine ⟨by simp, List.forall_mem_cons.mpr ⟨?_, digits_characters h⟩⟩
        simp [isNumberCharacter, hfirst.1, hfirst.2]
    have hfrac' : ∀ character ∈ frac, isNumberCharacter character := by
      cases hfrac with
      | none => decide
      | digits _ h => exact List.forall_mem_cons.mpr ⟨by decide, digits_characters h⟩
    have hexp' : ∀ character ∈ exp, isNumberCharacter character := by
      cases hexp with
      | none => decide
      | digits he hsign _ h =>
        rename_i e sign digits
        refine List.forall_mem_cons.mpr ⟨by obtain rfl | rfl := he <;> decide, ?_⟩
        refine List.forall_mem_append.mpr ⟨?_, digits_characters h⟩
        obtain rfl | rfl | rfl := hsign <;> decide
    refine ⟨by simp [hint'.1], ?_⟩
    simp only [List.forall_mem_append]
    exact ⟨hminus', hint'.2, hfrac', hexp'⟩

/-- A text after RFC 8259 is one of the dialect, with its strings in UTF-8. -/
theorem dialect_of_rfc8259 {value : Json NumberLiteral (List Char)} (hlone : ∀ v, ¬Surrogate v → lone v)
    (h : Text rfc8259 (.item value) text) :
    Text (dialect lone) (.item (value.map NumberLiteral.text ofChars)) text := by
  refine h.map (fun literal _ hliteral => ?_) fun _ _ hvalue => unitsText_string hlone hvalue
  exact ⟨hliteral, numberText_characters literal.valid⟩

/-! ## Surrogates -/

/-- The bytes of a string in UTF-8 are in UTF-8 where no surrogate stands alone. `bytes` is what the
string stands for up to here, and `begun` the front of a character. -/
theorem UnitsText.wellFormed_append {begun : List Byte} (h : UnitsText (fun v => ¬Surrogate v) unit text)
    (hbytes : WellFormed bytes) (htext : WellFormed (begun ++ text)) : WellFormed (bytes ++ (begun ++ unit)) := by
  induction h generalizing bytes begun with
  | nil => exact hbytes.append htext
  | @cons unit units text rest h hrest ih =>
    -- An escape starts where a character ends, and so does what follows it.
    have hescape {escape : List Byte} (htext' : text = 0x5C :: escape) (hascii : ∀ byte ∈ escape, Ascii byte)
        (hunit : WellFormed unit) : WellFormed (bytes ++ (begun ++ (unit ++ units))) := by
      rw [htext', List.cons_append] at htext
      obtain ⟨hbegun, hrest'⟩ := htext.split (by decide)
      have hdone := ih ((hbytes.append hbegun).append hunit)
        (show WellFormed ([] ++ rest) from hrest'.of_ascii_append hascii)
      rw [List.nil_append, List.append_assoc, List.append_assoc] at hdone
      exact hdone
    cases h with
    | @raw character hcontrol hquote hslash =>
      have hbegun : WellFormed (begun ++ [character] ++ rest) := by rwa [List.append_assoc]
      have hdone := ih hbytes hbegun
      rwa [List.append_assoc] at hdone
    | short h =>
      obtain ⟨hletter, hcode⟩ := shortEscapes_ascii _ h
      exact hescape rfl (List.forall_mem_singleton.mpr hletter) (wellFormed_singleton hcode)
    | hex h =>
      have hunit := wellFormed_encode h.lt (CodePointText.paired_iff.mp h).2
      exact hescape rfl (List.forall_mem_cons.mpr ⟨by decide, h.ascii⟩) hunit

theorem UnitsText.wellFormed (h : UnitsText (fun v => ¬Surrogate v) bytes text) (htext : WellFormed text) :
    WellFormed bytes := by
  have hnothing : WellFormed ([] ++ text) := htext
  exact h.wellFormed_append wellFormed_nil hnothing

/-- The bytes of a string show a surrogate that stands alone in it. -/
theorem UnitsText.paired_or_surrogate (h : UnitsText (fun v => ¬HighSurrogate v) bytes text) :
    UnitsText (fun v => ¬Surrogate v) bytes text ∨
      ∃ front v back, Surrogate v ∧ bytes = front ++ (encode v ++ back) := by
  induction h with
  | nil => exact .inl .nil
  | @cons unit units text rest h hrest ih =>
    obtain hpaired | ⟨front, v, back, hv, hunits⟩ := ih
    · cases h with
      | raw hcontrol hquote hescape => exact .inl (.cons (.raw hcontrol hquote hescape) hpaired)
      | short h => exact .inl (.cons (.short h) hpaired)
      | @hex v digits h =>
        by_cases hv : Surrogate v
        · exact .inr ⟨[], v, units, hv, rfl⟩
        · exact .inl (.cons (.hex (CodePointText.paired_iff.mpr ⟨h, hv⟩)) hpaired)
    · exact .inr ⟨unit ++ front, v, back, hv, by rw [hunits, List.append_assoc]⟩

theorem UnitsText.paired (h : UnitsText (fun v => ¬HighSurrogate v) bytes text) (hbytes : WellFormed bytes) :
    UnitsText (fun v => ¬Surrogate v) bytes text := by
  obtain hpaired | ⟨front, v, back, hv, rfl⟩ := h.paired_or_surrogate
  · exact hpaired
  · exact absurd hbytes (not_wellFormed_of_surrogate hv)

theorem isNumberCharacter_ascii {character : Byte} (h : isNumberCharacter character) : Ascii character := by
  unfold isNumberCharacter at h
  rw [decide_eq_true_eq] at h
  unfold Ascii
  obtain h | rfl | rfl | rfl | rfl | rfl := h
  · omega
  all_goals decide

/-- The strings of a text of the dialect are in UTF-8 exactly where no surrogate stands alone. -/
theorem all_wellFormed_iff {value : JsonValue} (h : Text looseDialect (.item value) text) (hutf8 : WellFormed text) :
    value.All WellFormed WellFormed ↔ Text pairedDialect (.item value) text := by
  constructor
  · intro hall
    exact h.mono (P := WellFormed) (Q := WellFormed) hall (fun _ _ _ hliteral => hliteral)
      fun _ _ hvalue hstring => UnitsText.paired hstring hvalue
  · intro hpaired
    refine hpaired.all_of_wellFormed hutf8 (fun _ _ hliteral => ?_) fun _ _ hvalue => hvalue.wellFormed
    exact wellFormed_of_ascii fun character hmem => isNumberCharacter_ascii (hliteral.2.2 character hmem)

end Repiu.Update
