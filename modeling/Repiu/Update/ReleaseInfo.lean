import Repiu.Update.JsonParserExactness

/-!
# The release response

`ParseLatestRelease` and the version of a tag. The reader inverts every text of RFC 8259, and what it
returns is in UTF-8 unless a low surrogate is escaped by itself.
-/

namespace Repiu.Update

open Json Utf8

/-! ## Versions -/

structure SemanticVersion where
  major : ℕ
  minor : ℕ
  patch : ℕ
deriving DecidableEq

/-- `IsSpace`. -/
def isVersionSpace (character : Byte) : Bool :=
  character = 0x20 ∨ character = 0x09 ∨ character = 0x0D ∨ character = 0x0A

/-- `ReadPart`: the number up to the separator, or up to the end for a separator of zero. -/
def readPart (separator : Byte) (text : List Byte) : Option (ℕ × List Byte) :=
  match if separator = 0 then some text.length else text.findIdx? fun character => character = separator with
  | none | some 0 => none
  | some stop =>
    let part := text.take stop
    if part.any fun character => character.toNat < 0x30 ∨ 0x39 < character.toNat then none
    else
      match fromChars 10 (2 ^ 64) part with
      | none => none
      | some (parsed, _) =>
        if 2 ^ 32 - 1 < parsed then none
        else some (parsed, text.drop (if separator = 0 then stop else stop + 1))

/-- `ParseSemanticVersion`. -/
def parseSemanticVersion (text : List Byte) : Option SemanticVersion := do
  let text := text.dropWhile isVersionSpace
  let text := (text.reverse.dropWhile isVersionSpace).reverse
  let text := if text.head? = some 0x76 ∨ text.head? = some 0x56 then text.drop 1 else text
  let (major, text) ← readPart 0x2E text
  let (minor, text) ← readPart 0x2E text
  let (patch, text) ← readPart 0 text
  if text ≠ [] then none else some { major, minor, patch }

/-! ## Releases -/

structure ReleaseAsset where
  name : List Byte
  downloadUrl : List Byte
  size : ℕ
  sha256 : List Byte

structure ReleaseInfo where
  tag : List Byte
  version : SemanticVersion
  pageUrl : List Byte
  assets : List ReleaseAsset

/-- What `*release` and `*error` hold. -/
structure ReleaseOutputs where
  release : ReleaseInfo
  error : List Byte

/-- `StringMember`. -/
def stringMember (object : JsonValue) (key : List Byte) : Option (List Byte) :=
  match JsonValue.member object key with
  | some (.string text) => some text
  | _ => none

/-- `IsLowerHex`. -/
def isLowerHex (text : List Byte) : Bool :=
  text.all fun character =>
    (0x30 ≤ character.toNat ∧ character.toNat ≤ 0x39) ∨ (0x61 ≤ character.toNat ∧ character.toNat ≤ 0x66)

/-- The digest behind `kSha256Prefix`, or none. -/
def assetSha256 (item : JsonValue) : List Byte :=
  let prefixBytes := ascii "sha256:"
  match stringMember item (ascii "digest") with
  | none => []
  | some digest =>
    if digest.take prefixBytes.length = prefixBytes ∧ digest.length = prefixBytes.length + 64 ∧
      isLowerHex (digest.drop prefixBytes.length) then digest.drop prefixBytes.length
    else []

/-- One round of the loop over the assets, nothing where it drops the item. -/
def parseAsset (item : JsonValue) : Option ReleaseAsset :=
  match stringMember item (ascii "name"), stringMember item (ascii "browser_download_url"),
    JsonValue.member item (ascii "size") with
  | some name, some downloadUrl, some (.number literal) =>
    match fromChars 10 (2 ^ 64) literal with
    | some (size, []) => some { name, downloadUrl, size, sha256 := assetSha256 item }
    | _ => none
  | _, _, _ => none

/-- The assets of a response. -/
def parseAssets (root : JsonValue) : List ReleaseAsset :=
  match JsonValue.member root (ascii "assets") with
  | some (.array items) => items.filterMap parseAsset
  | _ => []

/-- `ParseLatestRelease` behind the call of `Parse`. -/
def readRelease (root : JsonValue) (outputs : ReleaseOutputs) : Bool × ReleaseOutputs :=
  match root with
  | .object _ =>
    match stringMember root (ascii "tag_name") with
    | none =>
      match stringMember root (ascii "message") with
      | some message => (false, { outputs with error := ascii "GitHub: " ++ message })
      | none => (false, { outputs with error := ascii "release has no tag_name" })
    | some tag =>
      match parseSemanticVersion tag with
      | none => (false, { outputs with error := ascii "release tag is not a version: " ++ tag })
      | some version =>
        let pageUrl := (stringMember root (ascii "html_url")).getD []
        (true, { outputs with release := { tag, version, pageUrl, assets := parseAssets root } })
  | _ => (false, { outputs with error := ascii "release response is not an object" })

/-- `ParseLatestRelease`, nothing where it does not return. -/
def parseLatestRelease (json : List Byte) (outputs : ReleaseOutputs) : Option (Bool × ReleaseOutputs) :=
  match parse json with
  | none => none
  | some (.error error) => some (false, { outputs with error })
  | some (.ok root) => some (readRelease root outputs)

variable {text json : List Byte} {before after : ReleaseOutputs}

/-! ## Assets -/

/-! ## Refusals -/

/-- A refused response leaves the release as it was. -/
theorem readRelease_release {root : JsonValue} (h : readRelease root before = (false, after)) :
    after.release = before.release := by
  unfold readRelease at h
  split at h
  · split at h
    · split at h <;> rw [← (Prod.mk.inj h).2]
    · split at h
      · rw [← (Prod.mk.inj h).2]
      · simp at h
  · rw [← (Prod.mk.inj h).2]

theorem parseLatestRelease_release (h : parseLatestRelease json before = some (false, after)) :
    after.release = before.release := by
  unfold parseLatestRelease at h
  split at h
  · simp at h
  · rw [← (Prod.mk.inj (Option.some.inj h)).2]
  · exact readRelease_release (Option.some.inj h)

theorem parseLatestRelease_ne_none : parseLatestRelease json before ≠ none := by
  unfold parseLatestRelease
  split
  · next hnone => exact absurd hnone (parse_ne_none json)
  · simp
  · simp

/-! ## Inversion -/

/-- What the reader owes one text: it reads back each value that the text is one of, its strings are in
UTF-8 if the text is, it returns, and a refusal leaves the release alone. -/
structure InvertsSerialisation (text : List Byte) : Prop where
  reads (value : Json NumberLiteral (List Char)) (hnesting : value.nesting ≤ 64)
    (htext : Text rfc8259 (.item value) text) : parse text = some (.ok (value.map NumberLiteral.text ofChars))
  utf8 (htext : WellFormed text) (value : JsonValue) (hvalue : parse text = some (.ok value)) :
    value.All WellFormed WellFormed
  returns : parse text ≠ none ∧ ∀ outputs, parseLatestRelease text outputs ≠ none
  keeps (before after : ReleaseOutputs) (hfalse : parseLatestRelease text before = some (false, after)) :
    after.release = before.release

/-- Each surrogate that is escaped in a text of the dialect is one of a pair. -/
def SurrogatesPaired (text : List Byte) : Prop :=
  ∀ value, Text looseDialect (.item value) text → value.nesting ≤ kMaxDepth →
    Text pairedDialect (.item value) text

variable {value : Json NumberLiteral (List Char)}

theorem parse_rfc8259 (hnesting : value.nesting ≤ 64) (htext : Text rfc8259 (.item value) text) :
    parse text = some (.ok (value.map NumberLiteral.text ofChars)) := by
  refine parse_eq_ok_iff.mpr ⟨dialect_of_rfc8259 (fun v hv hhigh => hv hhigh.surrogate) htext, ?_⟩
  rw [nesting_map]
  exact hnesting

theorem invertsSerialisation_iff (text : List Byte) :
    InvertsSerialisation text ↔ (WellFormed text → SurrogatesPaired text) := by
  constructor
  · intro h hutf8 value htext hnesting
    exact (all_wellFormed_iff htext hutf8).mp (h.utf8 hutf8 value (parse_eq_ok_iff.mpr ⟨htext, hnesting⟩))
  · intro h
    refine ⟨fun value => parse_rfc8259, fun hutf8 value hvalue => ?_, ⟨parse_ne_none text, fun outputs => ?_⟩, ?_⟩
    · obtain ⟨htext, hnesting⟩ := parse_eq_ok_iff.mp hvalue
      exact (all_wellFormed_iff htext hutf8).mpr (h hutf8 value htext hnesting)
    · exact parseLatestRelease_ne_none
    · exact fun before after => parseLatestRelease_release

/-- A string of the low surrogate U+DC00. -/
theorem invertsSerialisation_fails_low :
    ¬InvertsSerialisation [0x22, 0x5C, 0x75, 0x44, 0x43, 0x30, 0x30, 0x22] := by
  intro h
  have hutf8 : WellFormed [0x22, 0x5C, 0x75, 0x44, 0x43, 0x30, 0x30, 0x22] := wellFormed_of_ascii (by decide)
  cases h.utf8 hutf8 (.string (encode 0xDC00)) rfl with
  | string hstring =>
    have hsurrogate : Surrogate 0xDC00 := by unfold Surrogate; decide
    have hlow : WellFormed ([] ++ (encode 0xDC00 ++ [])) := by rwa [List.append_nil]
    exact not_wellFormed_of_surrogate hsurrogate hlow

end Repiu.Update
