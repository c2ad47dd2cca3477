import Repiu.Update.JsonTokens

/-!
# The reader reads exactly the dialect

`JsonParser::Parse` returns on every text. It returns a value exactly where the text is one of that
value in the dialect and the value is not too deep.
-/

namespace Repiu.Update

open Json Utf8

variable {α : Type} {closing byte : Byte} {space text rest front : List Byte} {value : α} {values done : List α}
  {rounds levels : ℕ} {element : List Byte → Reading α} {Element : α → List Byte → Prop}

def Closing (byte : Byte) : Prop := byte = 0x5D ∨ byte = 0x7D

/-- A function that reads the texts of `Element`, but for the space at their end, and no others. -/
structure ReadsExactly (element : List Byte → Reading α) (Element : α → List Byte → Prop) : Prop where
  finishes (text : List Byte) : element text ≠ .unfinished
  sound {text rest : List Byte} {value : α} (h : element text = .ok value rest) :
    ∃ front, text = front ++ rest ∧ ∀ space, Space space → Element value (front ++ space)
  complete {text : List Byte} {value : α} (h : Element value text) :
    ∃ front space, text = front ++ space ∧ Space space ∧ ∀ rest, Ends rest → element (front ++ rest) = .ok value rest
  start {text : List Byte} {value : α} (h : Element value text) :
    ∃ space character tail, Space space ∧ text = space ++ character :: tail ∧ ¬IsSpace character ∧
      ¬Closing character ∧ Element value (character :: tail)
  lead {space text : List Byte} {value : α} (hspace : Space space) (h : Element value text) :
    Element value (space ++ text)

theorem Closing.not_space (h : Closing byte) : ¬IsSpace byte := by
  obtain rfl | rfl := h <;> decide

theorem Closing.ends (h : Closing byte) : Ends (byte :: rest) := by
  obtain rfl | rfl := h <;> exact ends_cons (by decide)

theorem Closing.ne_comma (h : Closing byte) : byte ≠ 0x2C := by
  obtain rfl | rfl := h <;> decide

theorem space_append {space' : List Byte} (h : Space space) (h' : Space space') : Space (space ++ space') :=
  List.forall_mem_append.mpr ⟨h, h'⟩

/-! ## Lists -/

namespace ReadsExactly

variable (R : ReadsExactly element Element)
include R

theorem length_lt (h : element text = .ok value rest) : rest.length < text.length := by
  obtain ⟨front, rfl, hfront⟩ := R.sound h
  obtain ⟨space, character, tail, -, hfront, -⟩ := R.start (hfront [] space_nil)
  rw [List.append_nil] at hfront
  rw [hfront]
  simp only [List.length_append, List.length_cons]
  omega

theorem separated_append (hclosing : Closing closing) (h : Separated Element values text)
    (hrounds : text.length < rounds) :
    parseSeparated element closing rounds done (text ++ closing :: rest) = .ok (done ++ values) rest := by
  induction h generalizing rounds done with
  | last h =>
    obtain ⟨rounds, rfl⟩ := Nat.exists_eq_add_one.mpr (Nat.zero_lt_of_lt hrounds)
    obtain ⟨front, space, rfl, hspace, hread⟩ := R.complete h
    have hclose : consume closing (closing :: rest) = (true, rest) := by
      have hspace : consume closing ([] ++ closing :: rest) = _ := consume_space space_nil hclosing.not_space
      rwa [if_pos rfl] at hspace
    rw [parseSeparated, List.append_assoc, hread _ (hclosing.ends.append_space hspace), Reading.ok_bind,
      consume_space hspace hclosing.not_space, if_neg hclosing.ne_comma]
    dsimp only
    rw [hclose]
  | next h _ ih =>
    obtain ⟨rounds, rfl⟩ := Nat.exists_eq_add_one.mpr (Nat.zero_lt_of_lt hrounds)
    obtain ⟨front, space, rfl, hspace, hread⟩ := R.complete h
    have hends {tail : List Byte} : Ends (space ++ 0x2C :: tail) := (ends_cons (by decide)).append_space hspace
    rw [List.length_append, List.length_cons] at hrounds
    rw [parseSeparated, List.append_assoc, List.append_assoc, List.cons_append, hread _ hends, Reading.ok_bind,
      consume_space hspace (by decide), if_pos rfl]
    dsimp only
    rw [ih (by omega), List.append_assoc]
    rfl

theorem separated_ok (h : parseSeparated element closing rounds done text = .ok values rest) :
    ∃ new front, Separated Element new front ∧ values = done ++ new ∧ text = front ++ closing :: rest := by
  induction rounds generalizing done text with
  | zero => simp [parseSeparated] at h
  | succ rounds ih =>
    obtain ⟨value, text', hread, hnext⟩ := Reading.bind_eq_ok.mp h
    obtain ⟨front, rfl, hfront⟩ := R.sound hread
    split at hnext
    · next text'' hcomma =>
      obtain ⟨space, hspace, rfl⟩ := consume_true hcomma
      obtain ⟨new, front', hnew, rfl, rfl⟩ := ih hnext
      refine ⟨value :: new, (front ++ space) ++ 0x2C :: front', .next (hfront space hspace) hnew, ?_, ?_⟩
      · rw [List.append_assoc]
        rfl
      · simp only [List.append_assoc, List.cons_append]
    · next text'' hcomma =>
      obtain ⟨space, hspace, rfl⟩ := consume_false hcomma
      split at hnext
      · next hclose =>
        obtain ⟨space', hspace', rfl⟩ := consume_true hclose
        obtain ⟨rfl, rfl⟩ := Reading.ok.inj hnext
        refine ⟨[value], front ++ (space ++ space'), .last (hfront _ (space_append hspace hspace')), rfl, ?_⟩
        simp only [List.append_assoc]
      · simp at hnext

theorem separated_finishes (hrounds : text.length < rounds) :
    parseSeparated element closing rounds done text ≠ .unfinished := by
  induction rounds generalizing done text with
  | zero => exact absurd hrounds (Nat.not_lt_zero _)
  | succ rounds ih =>
    refine Reading.bind_ne_unfinished (R.finishes text) fun value text' hread => ?_
    have hlength := R.length_lt hread
    split
    · next text'' hcomma =>
      obtain ⟨space, -, rfl⟩ := consume_true hcomma
      refine ih ?_
      rw [List.length_append, List.length_cons] at hlength
      omega
    · split <;> simp

theorem separated_start (h : Separated Element values text) :
    ∃ space character tail, Space space ∧ text = space ++ character :: tail ∧ ¬IsSpace character ∧
      ¬Closing character ∧ Separated Element values (character :: tail) := by
  cases h with
  | last h =>
    obtain ⟨space, character, tail, hspace, rfl, hcharacter, hclosing, htail⟩ := R.start h
    exact ⟨space, character, tail, hspace, rfl, hcharacter, hclosing, .last htail⟩
  | next h hrest =>
    obtain ⟨space, character, tail, hspace, rfl, hcharacter, hclosing, htail⟩ := R.start h
    exact ⟨space, character, _, hspace, List.append_assoc .., hcharacter, hclosing, .next htail hrest⟩

theorem separated_lead (hspace : Space space) (h : Separated Element values text) :
    Separated Element values (space ++ text) := by
  cases h with
  | last h => exact .last (R.lead hspace h)
  | next h hrest =>
    rw [← List.append_assoc]
    exact .next (R.lead hspace h) hrest

theorem elements_append (hclosing : Closing closing) (h : Separated Element values text) :
    parseElements element closing (text ++ closing :: rest) = .ok values rest := by
  obtain ⟨space, character, tail, hspace, rfl, hcharacter, hclosing', htail⟩ := R.separated_start h
  have hne : character ≠ closing := fun heq => hclosing' (heq ▸ hclosing)
  have hread : parseSeparated element closing ((character :: (tail ++ closing :: rest)).length + 1) []
      (character :: tail ++ closing :: rest) = .ok ([] ++ values) rest :=
    R.separated_append hclosing htail (by simp)
  unfold parseElements
  rw [List.append_assoc, List.cons_append, consume_space hspace hcharacter, if_neg hne]
  exact hread

theorem elements_ok (h : parseElements element closing text = .ok values rest) :
    ∃ front, text = front ++ closing :: rest ∧ (values = [] ∧ Space front ∨ Separated Element values front) := by
  unfold parseElements at h
  split at h
  · next hclose =>
    obtain ⟨rfl, rfl⟩ := Reading.ok.inj h
    obtain ⟨space, hspace, rfl⟩ := consume_true hclose
    exact ⟨space, rfl, .inl ⟨rfl, hspace⟩⟩
  · next hclose =>
    obtain ⟨space, hspace, rfl⟩ := consume_false hclose
    obtain ⟨new, front, hnew, rfl, rfl⟩ := R.separated_ok h
    exact ⟨space ++ front, by rw [List.append_assoc], .inr (R.separated_lead hspace hnew)⟩

theorem elements_finishes : parseElements element closing text ≠ .unfinished := by
  unfold parseElements
  split
  · simp
  · exact R.separated_finishes (Nat.lt_succ_self _)

end ReadsExactly

theorem elements_empty (hclosing : Closing closing) (hspace : Space space) :
    parseElements element closing (space ++ closing :: rest) = .ok [] rest := by
  unfold parseElements
  rw [consume_space hspace hclosing.not_space, if_pos rfl]

/-! ## Values -/

/-- A value with space around it and fewer than `levels` containers around its deepest part. -/
def ItemText (levels : ℕ) (item : JsonValue) (text : List Byte) : Prop :=
  item.nesting < levels ∧ Text looseDialect (.item item) text

def MemberText (levels : ℕ) (member : List Byte × JsonValue) (text : List Byte) : Prop :=
  member.2.nesting < levels ∧ Text looseDialect (.member member) text

variable {inner : List Byte → Reading JsonValue} {json : JsonValue}

theorem separated_items {items : List JsonValue} :
    Separated (ItemText levels) items text ↔
      (Json.array items : JsonValue).nesting < levels + 1 ∧ Text looseDialect (.items items) text := by
  rw [nesting_array_lt, Text.items_iff]
  exact separated_and_iff

theorem separated_members {members : List (List Byte × JsonValue)} :
    Separated (MemberText levels) members text ↔
      (Json.object members : JsonValue).nesting < levels + 1 ∧ Text looseDialect (.members members) text := by
  rw [nesting_object_lt, Text.members_iff]
  exact separated_and_iff

theorem parseMember_exact (R : ReadsExactly inner (ItemText levels)) :
    ReadsExactly (parseMember inner) (MemberText levels) where
  finishes text := by
    refine Reading.bind_ne_unfinished parseString_ne_unfinished fun first text' _ => ?_
    split
    · simp
    · exact Reading.map_ne_unfinished (R.finishes _)
  sound {text rest member} h := by
    obtain ⟨first, text', hfirst, hnext⟩ := Reading.bind_eq_ok.mp h
    obtain ⟨before, key, hbefore, hkey, rfl⟩ := parseString_ok hfirst
    split at hnext
    · simp at hnext
    · next text'' hcolon =>
      obtain ⟨after, hafter, rfl⟩ := consume_true hcolon
      obtain ⟨second, hsecond, rfl⟩ := Reading.map_eq_ok.mp hnext
      obtain ⟨front, rfl, hfront⟩ := R.sound hsecond
      refine ⟨before ++ 0x22 :: (key ++ 0x22 :: (after ++ 0x3A :: front)), by simp, fun space hspace => ?_⟩
      obtain ⟨hnesting, htext⟩ := hfront space hspace
      refine ⟨hnesting, ?_⟩
      have hmember := Text.member hbefore hkey hafter htext
      simpa using hmember
  complete {text member} h := by
    obtain ⟨hnesting, htext⟩ := h
    cases htext with
    | @member name value before key after text hbefore hname hafter htext =>
      obtain ⟨front, space, rfl, hspace, hread⟩ := R.complete ⟨hnesting, htext⟩
      refine ⟨before ++ 0x22 :: (key ++ 0x22 :: (after ++ 0x3A :: front)), space, by simp, hspace, fun rest hends => ?_⟩
      unfold parseMember
      rw [show before ++ 0x22 :: (key ++ 0x22 :: (after ++ 0x3A :: front)) ++ rest =
        before ++ 0x22 :: (key ++ 0x22 :: (after ++ 0x3A :: (front ++ rest))) by simp,
        parseString_append hbefore hname, Reading.ok_bind, consume_space hafter (by decide), if_pos rfl]
      dsimp only
      rw [hread rest hends, Reading.ok_map]
  start {text member} h := by
    obtain ⟨hnesting, htext⟩ := h
    cases htext with
    | member hbefore hname hafter htext =>
      exact ⟨_, _, _, hbefore, rfl, by decide, by unfold Closing; decide, hnesting, .member space_nil hname hafter htext⟩
  lead {space text member} hspace h := by
    obtain ⟨hnesting, htext⟩ := h
    cases htext with
    | member hbefore hname hafter htext =>
      rw [← List.append_assoc]
      exact ⟨hnesting, .member (space_append hspace hbefore) hname hafter htext⟩

/-- No value starts with space or a closing bracket. -/
theorem value_start (h : Text looseDialect (.value json) text) :
    ∃ character tail, text = character :: tail ∧ ¬IsSpace character ∧ ¬Closing character := by
  unfold Closing
  cases h with
  | null | true | false => exact ⟨_, _, rfl, by decide, by decide⟩
  | string | emptyArray | array | emptyObject | object => exact ⟨_, _, rfl, by decide, by decide⟩
  | number h =>
    obtain ⟨rfl, hne, hcharacters⟩ := h
    obtain ⟨character, tail, rfl⟩ := List.exists_cons_of_ne_nil hne
    have hcharacter := hcharacters character List.mem_cons_self
    refine ⟨character, tail, rfl, fun hspace => IsSpace.not_number hspace hcharacter, ?_⟩
    rintro (rfl | rfl) <;> exact absurd hcharacter (by decide)

theorem parseValueWith_cons (hbyte : ¬IsSpace byte) :
    parseValueWith inner (byte :: text) =
      if byte = 0x7B then (parseElements (parseMember inner) 0x7D text).map .object
      else if byte = 0x5B then (parseElements inner 0x5D text).map .array
      else if byte = 0x22 then (parseString (byte :: text)).map .string
      else parseScalar (byte :: text) := by
  unfold parseValueWith
  rw [skipSpace_cons hbyte]

theorem consumeWord_ne {word : List Byte} {first : Byte} (h : byte ≠ first) :
    consumeWord (first :: word) (byte :: text) = (false, byte :: text) := by
  unfold consumeWord
  rw [if_pos]
  rw [List.length_cons, List.take_succ_cons]
  exact fun heq => h (List.cons.inj heq).1

theorem parseScalar_number {literal : List Byte} (hne : literal ≠ [])
    (h : ∀ character ∈ literal, isNumberCharacter character) (hends : Ends rest) :
    parseScalar (literal ++ rest) = .ok (.number literal) rest := by
  have hnumber := parseNumber_append hne h hends
  obtain ⟨character, tail, rfl⟩ := List.exists_cons_of_ne_nil hne
  have hcharacter := h character List.mem_cons_self
  have hword (first : Byte) (word : List Byte) (hfirst : ¬isNumberCharacter first) :
      consumeWord (first :: word) (character :: tail ++ rest) = (false, character :: tail ++ rest) :=
    consumeWord_ne fun heq => hfirst (heq ▸ hcharacter)
  unfold parseScalar
  rw [hword 0x74 _ (by decide)]
  dsimp only
  rw [hword 0x66 _ (by decide)]
  dsimp only
  rw [hword 0x6E _ (by decide)]
  dsimp only
  rw [hnumber, Reading.ok_map]

theorem value_append (R : ReadsExactly inner (ItemText levels)) (h : Text looseDialect (.value json) text)
    (hnesting : json.nesting < levels + 1) (hends : Ends rest) :
    parseValueWith inner (text ++ rest) = .ok json rest := by
  cases h with
  | null => rfl
  | true => rfl
  | false => rfl
  | number h =>
    obtain ⟨character, tail, hcons, hspace, -⟩ := value_start (Text.number h)
    obtain ⟨rfl, hne, hcharacters⟩ := h
    have hscalar := parseScalar_number hne hcharacters hends
    have hcharacter := hcharacters character (hcons ▸ List.mem_cons_self)
    rw [hcons, List.cons_append] at hscalar ⊢
    rw [parseValueWith_cons hspace, if_neg, if_neg, if_neg, hscalar]
    all_goals
      rintro rfl
      exact absurd hcharacter (by decide)
  | string h =>
    rw [List.cons_append, List.append_assoc, parseValueWith_cons (by decide), if_neg (by decide), if_neg (by decide),
      if_pos rfl]
    exact congrArg (Reading.map _) (parseString_append space_nil h)
  | emptyArray hspace =>
    rw [List.cons_append, List.append_assoc, parseValueWith_cons (by decide), if_neg (by decide), if_pos rfl]
    exact congrArg (Reading.map _) (elements_empty (.inl rfl) hspace)
  | array h =>
    rw [List.cons_append, List.append_assoc, parseValueWith_cons (by decide), if_neg (by decide), if_pos rfl]
    exact congrArg (Reading.map _) (R.elements_append (.inl rfl) (separated_items.mpr ⟨hnesting, h⟩))
  | emptyObject hspace =>
    rw [List.cons_append, List.append_assoc, parseValueWith_cons (by decide), if_pos rfl]
    exact congrArg (Reading.map _) (elements_empty (.inr rfl) hspace)
  | object h =>
    rw [List.cons_append, List.append_assoc, parseValueWith_cons (by decide), if_pos rfl]
    exact congrArg (Reading.map _)
      ((parseMember_exact R).elements_append (.inr rfl) (separated_members.mpr ⟨hnesting, h⟩))

theorem consumeWord_false {word : List Byte} (h : consumeWord word text = (false, rest)) : rest = text := by
  unfold consumeWord at h
  split_ifs at h
  · exact (Prod.mk.inj h).2.symm
  · simp at h

theorem parseScalar_ok (h : parseScalar text = .ok json rest) :
    ∃ front, Text looseDialect (.value json) front ∧ json.nesting < levels + 1 ∧ text = front ++ rest := by
  unfold parseScalar at h
  split at h
  · next htrue =>
    obtain ⟨rfl, rfl⟩ := Reading.ok.inj h
    exact ⟨_, .true, Nat.succ_pos _, consumeWord_true htrue⟩
  · next htrue =>
    obtain rfl := consumeWord_false htrue
    split at h
    · next hfalse =>
      obtain ⟨rfl, rfl⟩ := Reading.ok.inj h
      exact ⟨_, .false, Nat.succ_pos _, consumeWord_true hfalse⟩
    · next hfalse =>
      obtain rfl := consumeWord_false hfalse
      split at h
      · next hnull =>
        obtain ⟨rfl, rfl⟩ := Reading.ok.inj h
        exact ⟨_, .null, Nat.succ_pos _, consumeWord_true hnull⟩
      · next hnull =>
        obtain rfl := consumeWord_false hnull
        obtain ⟨literal, hread, rfl⟩ := Reading.map_eq_ok.mp h
        obtain ⟨hne, hcharacters, rfl⟩ := parseNumber_ok hread
        exact ⟨literal, .number ⟨rfl, hne, hcharacters⟩, Nat.succ_pos _, rfl⟩

theorem parseScalar_ne_unfinished : parseScalar text ≠ .unfinished := by
  unfold parseScalar
  split
  · simp
  split
  · simp
  split
  · simp
  · exact Reading.map_ne_unfinished parseNumber_ne_unfinished

theorem value_ok (R : ReadsExactly inner (ItemText levels)) (h : parseValueWith inner text = .ok json rest) :
    ∃ space front, Space space ∧ Text looseDialect (.value json) front ∧ json.nesting < levels + 1 ∧
      text = space ++ (front ++ rest) := by
  obtain ⟨space, hspace, htext⟩ := skipSpace_spec text
  refine ⟨space, ?_⟩
  rw [htext]
  simp only [List.append_cancel_left_eq]
  unfold parseValueWith at h
  generalize skipSpace text = stripped at h
  match stripped with
  | [] => simp at h
  | character :: tail =>
    dsimp only at h
    split_ifs at h with hobject harray hstring
    · obtain ⟨members, hread, rfl⟩ := Reading.map_eq_ok.mp h
      obtain ⟨front, rfl, ⟨rfl, hfront⟩ | hmembers⟩ := (parseMember_exact R).elements_ok hread
      · exact ⟨_, hspace, .emptyObject hfront, Nat.succ_pos _, by simp [hobject]⟩
      · obtain ⟨hnesting, hmembers⟩ := separated_members.mp hmembers
        exact ⟨_, hspace, .object hmembers, hnesting, by simp [hobject]⟩
    · obtain ⟨items, hread, rfl⟩ := Reading.map_eq_ok.mp h
      obtain ⟨front, rfl, ⟨rfl, hfront⟩ | hitems⟩ := R.elements_ok hread
      · exact ⟨_, hspace, .emptyArray hfront, Nat.succ_pos _, by simp [harray]⟩
      · obtain ⟨hnesting, hitems⟩ := separated_items.mp hitems
        exact ⟨_, hspace, .array hitems, hnesting, by simp [harray]⟩
    · obtain ⟨value, hread, rfl⟩ := Reading.map_eq_ok.mp h
      obtain ⟨before, front, hbefore, hfront, hcons⟩ := parseString_ok hread
      -- The character is the quote, so nothing stands before it.
      have hbefore' : before = [] := by
        cases before with
        | nil => rfl
        | cons first before =>
          have hfirst := hbefore first List.mem_cons_self
          rw [List.cons_append, List.cons.injEq] at hcons
          rw [← hcons.1, hstring] at hfirst
          exact absurd hfirst (by decide)
      refine ⟨_, hspace, .string hfront, Nat.succ_pos _, ?_⟩
      rw [hcons, hbefore']
      simp
    · obtain ⟨front, hfront, hnesting, hcons⟩ := parseScalar_ok h
      exact ⟨front, hspace, hfront, hnesting, hcons⟩

theorem value_finishes (R : ReadsExactly inner (ItemText levels)) : parseValueWith inner text ≠ .unfinished := by
  unfold parseValueWith
  split
  · simp
  · split_ifs
    · exact Reading.map_ne_unfinished (parseMember_exact R).elements_finishes
    · exact Reading.map_ne_unfinished R.elements_finishes
    · exact Reading.map_ne_unfinished parseString_ne_unfinished
    · exact parseScalar_ne_unfinished

theorem parseValueWith_exact (R : ReadsExactly inner (ItemText levels)) :
    ReadsExactly (parseValueWith inner) (ItemText (levels + 1)) where
  finishes text := value_finishes R
  sound {text rest json} h := by
    obtain ⟨before, front, hbefore, hfront, hnesting, rfl⟩ := value_ok R h
    refine ⟨before ++ front, (List.append_assoc ..).symm, fun space hspace => ⟨hnesting, ?_⟩⟩
    rw [List.append_assoc]
    exact .item hbefore hfront hspace
  complete {text json} h := by
    obtain ⟨hnesting, htext⟩ := h
    cases htext with
    | @item value before text after hbefore htext hafter =>
      refine ⟨before ++ text, after, (List.append_assoc ..).symm, hafter, fun rest hends => ?_⟩
      have hread := value_append R htext hnesting hends
      unfold parseValueWith at hread ⊢
      rwa [List.append_assoc, skipSpace_append hbefore]
  start {text json} h := by
    obtain ⟨hnesting, htext⟩ := h
    cases htext with
    | item hbefore htext hafter =>
      obtain ⟨character, tail, rfl, hcharacter, hclosing⟩ := value_start htext
      have hitem := Text.item space_nil htext hafter
      exact ⟨_, character, _, hbefore, rfl, hcharacter, hclosing, hnesting, hitem⟩
  lead {space text json} hspace h := by
    obtain ⟨hnesting, htext⟩ := h
    cases htext with
    | item hbefore htext hafter =>
      rw [← List.append_assoc]
      exact ⟨hnesting, .item (space_append hspace hbefore) htext hafter⟩

/-- `ParseValue` at every depth. -/
theorem parseValueWithin_exact (levels : ℕ) : ReadsExactly (parseValueWithin levels) (ItemText levels) := by
  induction levels with
  | zero =>
    exact {
      finishes := fun _ => by simp [parseValueWithin]
      sound := fun h => by simp [parseValueWithin] at h
      complete := fun h => absurd h.1 (Nat.not_lt_zero _)
      start := fun h => absurd h.1 (Nat.not_lt_zero _)
      lead := fun _ h => absurd h.1 (Nat.not_lt_zero _) }
  | succ levels ih => exact parseValueWith_exact ih

/-! ## Texts -/

/-- `Parse` returns. -/
theorem parse_ne_none (text : List Byte) : parse text ≠ none := by
  have hfinishes := (parseValueWithin_exact (kMaxDepth + 1)).finishes text
  unfold parse parseValue
  split
  · next hunfinished => exact absurd hunfinished hfinishes
  · simp
  · split <;> simp

theorem ends_nil : Ends [] := by simp [Ends]

/-- `Parse` reads the texts of the dialect that are not too deep, and only these. -/
theorem parse_eq_ok_iff :
    parse text = some (.ok json) ↔ Text looseDialect (.item json) text ∧ json.nesting ≤ kMaxDepth := by
  have R := parseValueWithin_exact (kMaxDepth + 1)
  constructor
  · intro h
    unfold parse at h
    split at h
    · simp at h
    · simp at h
    · next value rest hread =>
      split at h
      · next hskip =>
        obtain rfl := Except.ok.inj (Option.some.inj h)
        obtain ⟨front, rfl, hfront⟩ := R.sound hread
        obtain ⟨space, hspace, hrest⟩ := skipSpace_spec rest
        rw [hskip, List.append_nil] at hrest
        obtain ⟨hnesting, htext⟩ := hfront rest (hrest ▸ hspace)
        exact ⟨htext, Nat.lt_succ_iff.mp hnesting⟩
      · simp at h
  · rintro ⟨htext, hnesting⟩
    obtain ⟨front, space, rfl, hspace, hread⟩ := R.complete ⟨Nat.lt_succ_of_le hnesting, htext⟩
    have hends : Ends space := by
      have hnothing := ends_nil.append_space hspace
      rwa [List.append_nil] at hnothing
    have hskip : skipSpace space = [] := by
      have hnothing : skipSpace (space ++ []) = skipSpace [] := skipSpace_append hspace
      rwa [List.append_nil] at hnothing
    have hvalue : parseValue 0 (front ++ space) = .ok json space := hread space hends
    unfold parse
    rw [hvalue]
    dsimp only
    rw [hskip]

end Repiu.Update
