import Mathlib.Tactic.Common
import Repiu.Utf8

/-!
# The grammar of JSON

The texts of a value, after RFC 8259, over a choice of what the texts of numbers and strings are.
-/

namespace Repiu

/-- A value whose numbers are kept as `ν` and whose strings and names are kept as `σ`. -/
inductive Json (ν σ : Type) where
  | null
  | bool (boolean : Bool)
  | number (literal : ν)
  | string (text : σ)
  | array (items : List (Json ν σ))
  | object (members : List (σ × Json ν σ))

namespace Json

variable {ν σ ν' σ' : Type}

mutual

/-- How many arrays and objects stand around the deepest value. -/
def nesting : Json ν σ → ℕ
  | null | bool _ | number _ | string _ => 0
  | array items => itemsNesting items
  | object members => membersNesting members

def itemsNesting : List (Json ν σ) → ℕ
  | [] => 0
  | item :: items => max (nesting item + 1) (itemsNesting items)

def membersNesting : List (σ × Json ν σ) → ℕ
  | [] => 0
  | member :: members => max (memberNesting member + 1) (membersNesting members)

def memberNesting : σ × Json ν σ → ℕ
  | (_, value) => nesting value

end

mutual

/-- The value with its numbers and strings kept otherwise. -/
def map (f : ν → ν') (g : σ → σ') : Json ν σ → Json ν' σ'
  | null => null
  | bool boolean => bool boolean
  | number literal => number (f literal)
  | string text => string (g text)
  | array items => array (mapItems f g items)
  | object members => object (mapMembers f g members)

def mapItems (f : ν → ν') (g : σ → σ') : List (Json ν σ) → List (Json ν' σ')
  | [] => []
  | item :: items => map f g item :: mapItems f g items

def mapMembers (f : ν → ν') (g : σ → σ') : List (σ × Json ν σ) → List (σ' × Json ν' σ')
  | [] => []
  | member :: members => mapMember f g member :: mapMembers f g members

def mapMember (f : ν → ν') (g : σ → σ') : σ × Json ν σ → σ' × Json ν' σ'
  | (name, value) => (g name, map f g value)

end

/-- Every number is a `P`, every string and every name a `Q`. -/
inductive All (P : ν → Prop) (Q : σ → Prop) : Json ν σ → Prop
  | null : All P Q null
  | bool (boolean : Bool) : All P Q (bool boolean)
  | number {literal : ν} (h : P literal) : All P Q (number literal)
  | string {text : σ} (h : Q text) : All P Q (string text)
  | array {items : List (Json ν σ)} (h : ∀ item ∈ items, All P Q item) : All P Q (array items)
  | object {members : List (σ × Json ν σ)} (hnames : ∀ member ∈ members, Q member.1)
      (hvalues : ∀ member ∈ members, All P Q member.2) : All P Q (object members)

theorem nesting_array_lt {items : List (Json ν σ)} {levels : ℕ} :
    (array items).nesting < levels + 1 ↔ ∀ item ∈ items, item.nesting < levels := by
  rw [nesting]
  induction items with
  | nil => simp [itemsNesting]
  | cons item items ih =>
    rw [itemsNesting, max_lt_iff, ih, List.forall_mem_cons, Nat.add_lt_add_iff_right]

theorem nesting_object_lt {members : List (σ × Json ν σ)} {levels : ℕ} :
    (object members).nesting < levels + 1 ↔ ∀ member ∈ members, member.2.nesting < levels := by
  rw [nesting]
  induction members with
  | nil => simp [membersNesting]
  | cons member members ih =>
    rw [membersNesting, max_lt_iff, ih, List.forall_mem_cons, Nat.add_lt_add_iff_right, memberNesting]

mutual

theorem nesting_map (f : ν → ν') (g : σ → σ') : ∀ value : Json ν σ, (value.map f g).nesting = value.nesting
  | null | bool _ | number _ | string _ => by simp only [map, nesting]
  | array items => by simp only [map, nesting, itemsNesting_map f g items]
  | object members => by simp only [map, nesting, membersNesting_map f g members]

theorem itemsNesting_map (f : ν → ν') (g : σ → σ') :
    ∀ items : List (Json ν σ), itemsNesting (mapItems f g items) = itemsNesting items
  | [] => rfl
  | item :: items => by simp only [mapItems, itemsNesting, nesting_map f g item, itemsNesting_map f g items]

theorem membersNesting_map (f : ν → ν') (g : σ → σ') :
    ∀ members : List (σ × Json ν σ), membersNesting (mapMembers f g members) = membersNesting members
  | [] => rfl
  | (_, value) :: members => by
    simp only [mapMembers, membersNesting, mapMember, memberNesting, nesting_map f g value,
      membersNesting_map f g members]

end

/-! ## Texts -/

/-- `ws` is made of these. -/
def IsSpace (byte : Byte) : Prop := byte = 0x20 ∨ byte = 0x09 ∨ byte = 0x0A ∨ byte = 0x0D

def Space (text : List Byte) : Prop := ∀ byte ∈ text, IsSpace byte

/-- The texts of numbers, and those of strings between their quotes. -/
structure Lexemes (ν σ : Type) where
  number : ν → List Byte → Prop
  string : σ → List Byte → Prop

/-- What a stretch of a text stands for. -/
inductive Part (ν σ : Type) where
  | value (value : Json ν σ)
  | item (item : Json ν σ)
  | items (items : List (Json ν σ))
  | member (member : σ × Json ν σ)
  | members (members : List (σ × Json ν σ))

/-- The texts of a part. An item is a value between two stretches of space, and a JSON text is an item. -/
inductive Text (lexemes : Lexemes ν σ) : Part ν σ → List Byte → Prop
  | null : Text lexemes (.value null) [0x6E, 0x75, 0x6C, 0x6C]
  | true : Text lexemes (.value (bool true)) [0x74, 0x72, 0x75, 0x65]
  | false : Text lexemes (.value (bool false)) [0x66, 0x61, 0x6C, 0x73, 0x65]
  | number {literal : ν} {text : List Byte} (h : lexemes.number literal text) :
      Text lexemes (.value (number literal)) text
  | string {value : σ} {text : List Byte} (h : lexemes.string value text) :
      Text lexemes (.value (string value)) (0x22 :: (text ++ [0x22]))
  | emptyArray {space : List Byte} (h : Space space) :
      Text lexemes (.value (array [])) (0x5B :: (space ++ [0x5D]))
  | array {items : List (Json ν σ)} {text : List Byte} (h : Text lexemes (.items items) text) :
      Text lexemes (.value (array items)) (0x5B :: (text ++ [0x5D]))
  | emptyObject {space : List Byte} (h : Space space) :
      Text lexemes (.value (object [])) (0x7B :: (space ++ [0x7D]))
  | object {members : List (σ × Json ν σ)} {text : List Byte} (h : Text lexemes (.members members) text) :
      Text lexemes (.value (object members)) (0x7B :: (text ++ [0x7D]))
  | item {value : Json ν σ} {before text after : List Byte} (hbefore : Space before)
      (h : Text lexemes (.value value) text) (hafter : Space after) :
      Text lexemes (.item value) (before ++ (text ++ after))
  | lastItem {value : Json ν σ} {text : List Byte} (h : Text lexemes (.item value) text) :
      Text lexemes (.items [value]) text
  | nextItem {value : Json ν σ} {items : List (Json ν σ)} {text rest : List Byte}
      (h : Text lexemes (.item value) text) (hrest : Text lexemes (.items items) rest) :
      Text lexemes (.items (value :: items)) (text ++ 0x2C :: rest)
  | member {name : σ} {value : Json ν σ} {before key after text : List Byte} (hbefore : Space before)
      (hname : lexemes.string name key) (hafter : Space after) (h : Text lexemes (.item value) text) :
      Text lexemes (.member (name, value)) (before ++ 0x22 :: (key ++ 0x22 :: (after ++ 0x3A :: text)))
  | lastMember {member : σ × Json ν σ} {text : List Byte} (h : Text lexemes (.member member) text) :
      Text lexemes (.members [member]) text
  | nextMember {member : σ × Json ν σ} {members : List (σ × Json ν σ)} {text rest : List Byte}
      (h : Text lexemes (.member member) text) (hrest : Text lexemes (.members members) rest) :
      Text lexemes (.members (member :: members)) (text ++ 0x2C :: rest)

/-- Elements with commas between them. -/
inductive Separated {α : Type} (Element : α → List Byte → Prop) : List α → List Byte → Prop
  | last {value : α} {text : List Byte} (h : Element value text) : Separated Element [value] text
  | next {value : α} {values : List α} {text rest : List Byte} (h : Element value text)
      (hrest : Separated Element values rest) : Separated Element (value :: values) (text ++ 0x2C :: rest)

/-! ## RFC 8259 -/

def IsDigit (byte : Byte) : Prop := 0x30 ≤ byte.toNat ∧ byte.toNat ≤ 0x39

def Digits (text : List Byte) : Prop := ∀ byte ∈ text, IsDigit byte

inductive IntText : List Byte → Prop
  | zero : IntText [0x30]
  | digits {first : Byte} {text : List Byte} (hfirst : IsDigit first) (hzero : first ≠ 0x30)
      (h : Digits text) : IntText (first :: text)

inductive FracText : List Byte → Prop
  | none : FracText []
  | digits {text : List Byte} (hdigit : text ≠ []) (h : Digits text) : FracText (0x2E :: text)

inductive ExpText : List Byte → Prop
  | none : ExpText []
  | digits {e : Byte} {sign text : List Byte} (he : e = 0x65 ∨ e = 0x45)
      (hsign : sign = [] ∨ sign = [0x2B] ∨ sign = [0x2D]) (hdigit : text ≠ []) (h : Digits text) :
      ExpText (e :: (sign ++ text))

inductive NumberText : List Byte → Prop
  | parts {minus int frac exp : List Byte} (hminus : minus = [] ∨ minus = [0x2D]) (hint : IntText int)
      (hfrac : FracText frac) (hexp : ExpText exp) : NumberText (minus ++ (int ++ (frac ++ exp)))

/-- A number as it is written. -/
structure NumberLiteral where
  text : List Byte
  valid : NumberText text

/-- The letter of an escape and the character it stands for. -/
def shortEscapes : List (Byte × Byte) :=
  [(0x22, 0x22), (0x5C, 0x5C), (0x2F, 0x2F), (0x62, 0x08), (0x66, 0x0C), (0x6E, 0x0A), (0x72, 0x0D), (0x74, 0x09)]

def hexDigit (byte : Byte) : Option ℕ :=
  if 0x30 ≤ byte.toNat ∧ byte.toNat ≤ 0x39 then some (byte.toNat - 0x30)
  else if 0x41 ≤ byte.toNat ∧ byte.toNat ≤ 0x46 then some (byte.toNat - 0x41 + 10)
  else if 0x61 ≤ byte.toNat ∧ byte.toNat ≤ 0x66 then some (byte.toNat - 0x61 + 10)
  else none

/-- `4HEXDIG` and its number. -/
inductive Hex4 : ℕ → List Byte → Prop
  | digits {a b c d : Byte} {w x y z : ℕ} (ha : hexDigit a = some w) (hb : hexDigit b = some x)
      (hc : hexDigit c = some y) (hd : hexDigit d = some z) : Hex4 (((w * 16 + x) * 16 + y) * 16 + z) [a, b, c, d]

def HighSurrogate (v : ℕ) : Prop := 0xD800 ≤ v ∧ v < 0xDC00

def LowSurrogate (v : ℕ) : Prop := 0xDC00 ≤ v ∧ v < 0xE000

/-- The character of a surrogate pair. -/
def pairValue (high low : ℕ) : ℕ := 0x10000 + (high - 0xD800) * 0x400 + (low - 0xDC00)

inductive CharText : Char → List Byte → Prop
  | unescaped {c : Char} (hcontrol : 0x20 ≤ c.toNat) (hquote : c.toNat ≠ 0x22) (hescape : c.toNat ≠ 0x5C) :
      CharText c (Utf8.encode c.toNat)
  | short {c : Char} {letter code : Byte} (h : (letter, code) ∈ shortEscapes) (hc : c.toNat = code.toNat) :
      CharText c [0x5C, letter]
  | hex {c : Char} {digits : List Byte} (h : Hex4 c.toNat digits) : CharText c (0x5C :: 0x75 :: digits)
  | pair {c : Char} {high low : ℕ} {digits digits' : List Byte} (h : Hex4 high digits) (h' : Hex4 low digits')
      (hhigh : HighSurrogate high) (hlow : LowSurrogate low) (hc : c.toNat = pairValue high low) :
      CharText c (0x5C :: 0x75 :: (digits ++ 0x5C :: 0x75 :: digits'))

inductive StringText : List Char → List Byte → Prop
  | nil : StringText [] []
  | cons {c : Char} {chars : List Char} {text rest : List Byte} (h : CharText c text)
      (hrest : StringText chars rest) : StringText (c :: chars) (text ++ rest)

/-- Numbers as they are written and strings of characters. -/
def rfc8259 : Lexemes NumberLiteral (List Char) where
  number literal text := text = literal.text
  string := StringText

namespace Part

def map (f : ν → ν') (g : σ → σ') : Part ν σ → Part ν' σ'
  | value v => value (v.map f g)
  | item v => item (v.map f g)
  | items vs => items (mapItems f g vs)
  | member m => member (mapMember f g m)
  | members ms => members (mapMembers f g ms)

def All (P : ν → Prop) (Q : σ → Prop) : Part ν σ → Prop
  | value v | item v => v.All P Q
  | items vs => ∀ v ∈ vs, v.All P Q
  | member m => Q m.1 ∧ m.2.All P Q
  | members ms => ∀ m ∈ ms, Q m.1 ∧ m.2.All P Q

end Part

/-! ## One grammar and another -/

variable {lexemes lexemes' : Lexemes ν σ} {part : Part ν σ} {text : List Byte} {P : ν → Prop} {Q : σ → Prop}

/-- A text of a value is one of the value kept otherwise. -/
theorem Text.map {target : Lexemes ν' σ'} {f : ν → ν'} {g : σ → σ'} (h : Text lexemes part text)
    (hnumber : ∀ literal text, lexemes.number literal text → target.number (f literal) text)
    (hstring : ∀ value text, lexemes.string value text → target.string (g value) text) :
    Text target (part.map f g) text := by
  induction h with
  | null => exact .null
  | true => exact .true
  | false => exact .false
  | number h => exact .number (hnumber _ _ h)
  | string h => exact .string (hstring _ _ h)
  | emptyArray h => exact .emptyArray h
  | array _ ih => exact .array ih
  | emptyObject h => exact .emptyObject h
  | object _ ih => exact .object ih
  | item hbefore _ hafter ih => exact .item hbefore ih hafter
  | lastItem _ ih => exact .lastItem ih
  | nextItem _ _ ih ihrest => exact .nextItem ih ihrest
  | member hbefore hname hafter _ ih => exact .member hbefore (hstring _ _ hname) hafter ih
  | lastMember _ ih => exact .lastMember ih
  | nextMember _ _ ih ihrest => exact .nextMember ih ihrest

/-- The numbers and strings of a text decide which grammar it is of. -/
theorem Text.mono (h : Text lexemes part text) (hall : part.All P Q)
    (hnumber : ∀ literal text, P literal → lexemes.number literal text → lexemes'.number literal text)
    (hstring : ∀ value text, Q value → lexemes.string value text → lexemes'.string value text) :
    Text lexemes' part text := by
  induction h with
  | null => exact .null
  | true => exact .true
  | false => exact .false
  | number h =>
    cases hall with
    | number hP => exact .number (hnumber _ _ hP h)
  | string h =>
    cases hall with
    | string hQ => exact .string (hstring _ _ hQ h)
  | emptyArray h => exact .emptyArray h
  | array _ ih =>
    cases hall with
    | array hitems => exact .array (ih hitems)
  | emptyObject h => exact .emptyObject h
  | object _ ih =>
    cases hall with
    | object hnames hvalues => exact .object (ih fun m hm => ⟨hnames m hm, hvalues m hm⟩)
  | item hbefore _ hafter ih => exact .item hbefore (ih hall) hafter
  | lastItem _ ih => exact .lastItem (ih (hall _ List.mem_cons_self))
  | nextItem _ _ ih ihrest =>
    obtain ⟨hitem, hitems⟩ := List.forall_mem_cons.mp hall
    exact .nextItem (ih hitem) (ihrest hitems)
  | member hbefore hname hafter _ ih => exact .member hbefore (hstring _ _ hall.1 hname) hafter (ih hall.2)
  | lastMember _ ih => exact .lastMember (ih (hall _ List.mem_cons_self))
  | nextMember _ _ ih ihrest =>
    obtain ⟨hmember, hmembers⟩ := List.forall_mem_cons.mp hall
    exact .nextMember (ih hmember) (ihrest hmembers)

/-! ## Lists -/

theorem Text.items_iff {items : List (Json ν σ)} :
    Text lexemes (.items items) text ↔ Separated (fun item => Text lexemes (.item item)) items text := by
  constructor
  · intro h
    generalize hpart : Part.items items = part at h
    induction h generalizing items with
    | lastItem h =>
      obtain rfl := Part.items.inj hpart
      exact .last h
    | nextItem h _ _ ih =>
      obtain rfl := Part.items.inj hpart
      exact .next h (ih rfl)
    | _ => cases hpart
  · intro h
    induction h with
    | last h => exact .lastItem h
    | next h _ ih => exact .nextItem h ih

theorem Text.members_iff {members : List (σ × Json ν σ)} :
    Text lexemes (.members members) text ↔ Separated (fun member => Text lexemes (.member member)) members text := by
  constructor
  · intro h
    generalize hpart : Part.members members = part at h
    induction h generalizing members with
    | lastMember h =>
      obtain rfl := Part.members.inj hpart
      exact .last h
    | nextMember h _ _ ih =>
      obtain rfl := Part.members.inj hpart
      exact .next h (ih rfl)
    | _ => cases hpart
  · intro h
    induction h with
    | last h => exact .lastMember h
    | next h _ ih => exact .nextMember h ih

theorem separated_and_iff {α : Type} {Element : α → List Byte → Prop} {R : α → Prop} {values : List α} :
    Separated (fun value text => R value ∧ Element value text) values text ↔
      (∀ value ∈ values, R value) ∧ Separated Element values text := by
  constructor
  · intro h
    induction h with
    | last h => exact ⟨List.forall_mem_singleton.mpr h.1, .last h.2⟩
    | next h _ ih => exact ⟨List.forall_mem_cons.mpr ⟨h.1, ih.1⟩, .next h.2 ih.2⟩
  · rintro ⟨hvalues, h⟩
    induction h with
    | last h => exact .last ⟨hvalues _ List.mem_cons_self, h⟩
    | next h _ ih =>
      obtain ⟨hvalue, hrest⟩ := List.forall_mem_cons.mp hvalues
      exact .next ⟨hvalue, h⟩ (ih hrest)

/-! ## Texts in UTF-8 -/

open Utf8

variable {v : ℕ} {digits : List Byte}

theorem hexDigit_lt {character : Byte} (h : hexDigit character = some v) : v < 16 := by
  unfold hexDigit at h
  split_ifs at h <;> simp only [Option.some.injEq] at h <;> omega

theorem hexDigit_ascii {character : Byte} (h : hexDigit character = some v) : Ascii character := by
  unfold hexDigit at h
  unfold Ascii
  split_ifs at h <;> omega

theorem Hex4.lt (h : Hex4 v digits) : v < 0x10000 := by
  cases h with
  | digits ha hb hc hd =>
    have := hexDigit_lt ha
    have := hexDigit_lt hb
    have := hexDigit_lt hc
    have := hexDigit_lt hd
    omega

theorem Hex4.ascii (h : Hex4 v digits) : ∀ byte ∈ digits, Ascii byte := by
  cases h with
  | digits ha hb hc hd =>
    simp only [List.forall_mem_cons, List.not_mem_nil, false_implies, implies_true, and_true]
    exact ⟨hexDigit_ascii ha, hexDigit_ascii hb, hexDigit_ascii hc, hexDigit_ascii hd⟩

theorem shortEscapes_ascii : ∀ escape ∈ shortEscapes, Ascii escape.1 ∧ Ascii escape.2 := by
  simp [shortEscapes, Ascii]

theorem pairValue_char {high low : ℕ} (hhigh : HighSurrogate high) (hlow : LowSurrogate low) :
    pairValue high low < 0x110000 ∧ ¬Surrogate (pairValue high low) := by
  unfold HighSurrogate at hhigh
  unfold LowSurrogate at hlow
  unfold pairValue Surrogate
  omega

theorem HighSurrogate.surrogate (h : HighSurrogate v) : Surrogate v := ⟨h.1, by unfold HighSurrogate at h; omega⟩

theorem IsSpace.ascii {byte : Byte} (h : IsSpace byte) : Ascii byte := by
  obtain rfl | rfl | rfl | rfl := h <;> decide

theorem Space.ascii {space : List Byte} (h : Space space) : ∀ byte ∈ space, Ascii byte :=
  fun byte hmem => (h byte hmem).ascii

/-- Between its brackets, a text in UTF-8 is in UTF-8. -/
theorem wellFormed_of_brackets {opening closing : Byte} (hopening : Ascii opening) (hclosing : Ascii closing)
    (h : WellFormed (opening :: (text ++ [closing]))) : WellFormed text := by
  exact ((h.tail hopening).split hclosing).1

/-- A grammar whose strings are a `Q` where their text is in UTF-8. -/
theorem Text.all_of_wellFormed (h : Text lexemes part text) (hutf8 : WellFormed text)
    (hnumber : ∀ literal text, lexemes.number literal text → P literal)
    (hstring : ∀ value text, lexemes.string value text → WellFormed text → Q value) : part.All P Q := by
  induction h with
  | null => exact .null
  | true => exact .bool _
  | false => exact .bool _
  | number h => exact .number (hnumber _ _ h)
  | string h => exact .string (hstring _ _ h (wellFormed_of_brackets (by decide) (by decide) hutf8))
  | emptyArray h => exact .array fun item hitem => absurd hitem List.not_mem_nil
  | array _ ih => exact .array (ih (wellFormed_of_brackets (by decide) (by decide) hutf8))
  | emptyObject h =>
    exact .object (fun m hm => absurd hm List.not_mem_nil) fun m hm => absurd hm List.not_mem_nil
  | object _ ih =>
    have hmembers := ih (wellFormed_of_brackets (by decide) (by decide) hutf8)
    exact .object (fun m hm => (hmembers m hm).1) fun m hm => (hmembers m hm).2
  | item hbefore _ hafter ih =>
    exact ih ((hutf8.of_ascii_append hbefore.ascii).of_append_ascii hafter.ascii)
  | lastItem _ ih => exact List.forall_mem_singleton.mpr (ih hutf8)
  | nextItem _ _ ih ihrest =>
    obtain ⟨hitem, hitems⟩ := hutf8.split (by decide)
    exact List.forall_mem_cons.mpr ⟨ih hitem, ihrest hitems⟩
  | member hbefore hname hafter _ ih =>
    obtain ⟨-, hkey⟩ := hutf8.split (by decide)
    obtain ⟨hname', hvalue⟩ := hkey.split (by decide)
    obtain ⟨-, hvalue⟩ := hvalue.split (by decide)
    exact ⟨hstring _ _ hname hname', ih hvalue⟩
  | lastMember _ ih => exact List.forall_mem_singleton.mpr (ih hutf8)
  | nextMember _ _ ih ihrest =>
    obtain ⟨hmember, hmembers⟩ := hutf8.split (by decide)
    exact List.forall_mem_cons.mpr ⟨ih hmember, ihrest hmembers⟩

end Json
end Repiu
