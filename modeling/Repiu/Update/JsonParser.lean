import Repiu.JsonGrammar
import Repiu.TextReading

/-!
# The reader of the release response

`JsonParser`. A function's text is what stands from `position_` on, so `position_` is the length of the
whole less that of the rest.
-/

namespace Repiu.Update

/-- `JsonValue`: the kind, and of the other fields the one that the kind makes use of. -/
abbrev JsonValue := Json (List Byte) (List Byte)

/-- `JsonValue::Member`. -/
def JsonValue.member (value : JsonValue) (key : List Byte) : Option JsonValue :=
  match value with
  | .object members => (members.find? fun member => member.1 = key).map Prod.snd
  | _ => none

/-- The characters of a literal. -/
def ascii (text : String) : List Byte := text.toList.map fun character => BitVec.ofNat 8 character.toNat

/-- `kMaxDepth`. -/
def kMaxDepth : ℕ := 64

/-! ## Tokens -/

/-- `SkipSpace`. -/
def skipSpace (text : List Byte) : List Byte :=
  text.dropWhile fun character => character = 0x20 ∨ character = 0x09 ∨ character = 0x0D ∨ character = 0x0A

/-- `Consume`. -/
def consume (expected : Byte) (text : List Byte) : Bool × List Byte :=
  match skipSpace text with
  | [] => (false, [])
  | character :: rest => if character = expected then (true, rest) else (false, character :: rest)

/-- `ConsumeWord`. -/
def consumeWord (word text : List Byte) : Bool × List Byte :=
  if text.take word.length ≠ word then (false, text) else (true, text.drop word.length)

/-- `AppendUtf8`. -/
def appendUtf8 (codePoint : ℕ) (out : List Byte) : List Byte :=
  if codePoint < 0x80 then out ++ [BitVec.ofNat 8 codePoint]
  else if codePoint < 0x800 then
    out ++ [BitVec.ofNat 8 (0xC0 ||| codePoint >>> 6), BitVec.ofNat 8 (0x80 ||| codePoint &&& 0x3F)]
  else if codePoint < 0x10000 then
    out ++ [BitVec.ofNat 8 (0xE0 ||| codePoint >>> 12), BitVec.ofNat 8 (0x80 ||| codePoint >>> 6 &&& 0x3F),
      BitVec.ofNat 8 (0x80 ||| codePoint &&& 0x3F)]
  else
    out ++ [BitVec.ofNat 8 (0xF0 ||| codePoint >>> 18), BitVec.ofNat 8 (0x80 ||| codePoint >>> 12 &&& 0x3F),
      BitVec.ofNat 8 (0x80 ||| codePoint >>> 6 &&& 0x3F), BitVec.ofNat 8 (0x80 ||| codePoint &&& 0x3F)]

/-- The digit that a character is in a base, for `std::from_chars`. -/
def digitOf (base : ℕ) (character : Byte) : Option ℕ :=
  let c := character.toNat
  let digit :=
    if 0x30 ≤ c ∧ c ≤ 0x39 then c - 0x30
    else if 0x41 ≤ c ∧ c ≤ 0x5A then c - 0x41 + 10
    else if 0x61 ≤ c ∧ c ≤ 0x7A then c - 0x61 + 10
    else base
  if digit < base then some digit else none

/-- The digits at the front of a text, and what stands behind them. -/
def leadingDigits (base : ℕ) : List Byte → List ℕ × List Byte
  | [] => ([], [])
  | character :: rest =>
    match digitOf base character with
    | some digit => (digit :: (leadingDigits base rest).1, (leadingDigits base rest).2)
    | none => ([], character :: rest)

/-- `std::from_chars` into an unsigned type of `bound` values: the number and the rest, nothing for an error. -/
def fromChars (base bound : ℕ) (text : List Byte) : Option (ℕ × List Byte) :=
  let (digits, rest) := leadingDigits base text
  let value := digits.foldl (fun value digit => value * base + digit) 0
  if digits = [] ∨ bound ≤ value then none else some (value, rest)

/-- `ReadHex4`. -/
def readHex4 (text : List Byte) : Reading ℕ :=
  if text.length < 4 then .failed text
  else
    match fromChars 16 (2 ^ 32) (text.take 4) with
    | some (parsed, []) => .ok parsed (text.drop 4)
    | _ => .failed text

/-! ## Strings -/

/-- The case `'u'` of `ParseString`: the code point, of a pair where the first escape is a high surrogate. -/
def readCodePoint (text : List Byte) : Reading ℕ :=
  (readHex4 text).bind fun codePoint text =>
    if 0xD800 ≤ codePoint ∧ codePoint < 0xDC00 then
      match consumeWord [0x5C, 0x75] text with
      | (false, text) => .failed text
      | (true, text) =>
        (readHex4 text).bind fun low text =>
          if low < 0xDC00 ∨ 0xE000 ≤ low then .failed text
          else .ok (0x10000 + (codePoint - 0xD800) <<< 10 + (low - 0xDC00)) text
    else .ok codePoint text

/-- The switch of `ParseString`. -/
def readEscape (escape : Byte) (out text : List Byte) : Reading (List Byte) :=
  if escape = 0x22 ∨ escape = 0x5C ∨ escape = 0x2F then .ok (out ++ [escape]) text
  else if escape = 0x62 then .ok (out ++ [0x08]) text
  else if escape = 0x66 then .ok (out ++ [0x0C]) text
  else if escape = 0x6E then .ok (out ++ [0x0A]) text
  else if escape = 0x72 then .ok (out ++ [0x0D]) text
  else if escape = 0x74 then .ok (out ++ [0x09]) text
  else if escape = 0x75 then (readCodePoint text).map fun codePoint => appendUtf8 codePoint out
  else .failed text

/-- The loop of `ParseString`. -/
def parseStringLoop : ℕ → List Byte → List Byte → Reading (List Byte)
  | 0, _, _ => .unfinished
  | rounds + 1, out, text =>
    match text with
    | [] => .failed []
    | character :: text =>
      if character = 0x22 then .ok out text
      else if character.toNat < 0x20 then .failed text
      else if character ≠ 0x5C then parseStringLoop rounds (out ++ [character]) text
      else
        match text with
        | [] => .failed []
        | escape :: text => (readEscape escape out text).bind fun out text => parseStringLoop rounds out text

/-- `ParseString`. -/
def parseString (text : List Byte) : Reading (List Byte) :=
  match consume 0x22 text with
  | (false, text) => .failed text
  | (true, text) => parseStringLoop (text.length + 1) [] text

/-! ## Values -/

/-- The characters that `ParseNumber` takes up. -/
def isNumberCharacter (character : Byte) : Bool :=
  (0x30 ≤ character.toNat ∧ character.toNat ≤ 0x39) ∨ character = 0x2D ∨ character = 0x2B ∨ character = 0x2E ∨
    character = 0x65 ∨ character = 0x45

/-- `ParseNumber`. -/
def parseNumber (text : List Byte) : Reading (List Byte) :=
  match text.takeWhile isNumberCharacter with
  | [] => .failed text
  | literal => .ok literal (text.dropWhile isNumberCharacter)

/-- `do ... while (Consume(','))`, and the bracket behind it. -/
def parseSeparated {α : Type} (element : List Byte → Reading α) (closing : Byte) :
    ℕ → List α → List Byte → Reading (List α)
  | 0, _, _ => .unfinished
  | rounds + 1, values, text =>
    (element text).bind fun value text =>
      match consume 0x2C text with
      | (true, text) => parseSeparated element closing rounds (values ++ [value]) text
      | (false, text) =>
        match consume closing text with
        | (true, text) => .ok (values ++ [value]) text
        | (false, text) => .failed text

/-- One member of an object, over the reader of its value. -/
def parseMember (inner : List Byte → Reading JsonValue) (text : List Byte) : Reading (List Byte × JsonValue) :=
  (parseString text).bind fun first text =>
    match consume 0x3A text with
    | (false, text) => .failed text
    | (true, text) => (inner text).map fun second => (first, second)

/-- The elements between brackets, if there are any. -/
def parseElements {α : Type} (element : List Byte → Reading α) (closing : Byte) (text : List Byte) :
    Reading (List α) :=
  match consume closing text with
  | (true, text) => .ok [] text
  | (false, text) => parseSeparated element closing (text.length + 1) [] text

/-- The words, and a number where there is none. -/
def parseScalar (text : List Byte) : Reading JsonValue :=
  match consumeWord [0x74, 0x72, 0x75, 0x65] text with
  | (true, text) => .ok (.bool true) text
  | (false, text) =>
    match consumeWord [0x66, 0x61, 0x6C, 0x73, 0x65] text with
    | (true, text) => .ok (.bool false) text
    | (false, text) =>
      match consumeWord [0x6E, 0x75, 0x6C, 0x6C] text with
      | (true, text) => .ok .null text
      | (false, text) => (parseNumber text).map .number

/-- `ParseValue` where it is not too deep, over the reader of a value one level down. -/
def parseValueWith (inner : List Byte → Reading JsonValue) (text : List Byte) : Reading JsonValue :=
  match skipSpace text with
  | [] => .failed []
  | character :: text =>
    if character = 0x7B then (parseElements (parseMember inner) 0x7D text).map .object
    else if character = 0x5B then (parseElements inner 0x5D text).map .array
    else if character = 0x22 then (parseString (character :: text)).map .string
    else parseScalar (character :: text)

/-- `ParseValue` with so many levels left. -/
def parseValueWithin : ℕ → List Byte → Reading JsonValue
  | 0, text => .failed text
  | levels + 1, text => parseValueWith (parseValueWithin levels) text

/-- `ParseValue`. -/
def parseValue (depth : ℕ) : List Byte → Reading JsonValue := parseValueWithin (kMaxDepth + 1 - depth)

/-- A number as `std::to_string` has it. -/
def decimal (n : ℕ) : List Byte := ascii (toString n)

/-- `JsonParser::Parse`: the value or the error, nothing where it does not return. -/
def parse (text : List Byte) : Option (Except (List Byte) JsonValue) :=
  match parseValue 0 text with
  | .unfinished => none
  | .failed rest => some (.error (ascii "malformed JSON at offset " ++ decimal (text.length - rest.length)))
  | .ok value rest =>
    match skipSpace rest with
    | [] => some (.ok value)
    | rest => some (.error (ascii "trailing data after JSON at offset " ++ decimal (text.length - rest.length)))

end Repiu.Update
