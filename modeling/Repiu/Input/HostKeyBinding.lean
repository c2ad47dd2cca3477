import Repiu.Engine.GameInput
import Repiu.NamedText

/-!
# Host keys in a configuration

The rule for equal names (`config_name.h`), the names of keys (`host_key_names.cpp`), and the text of a key with
its modifiers (`host_key_binding.cpp`).
-/

namespace Repiu.Input

open Engine NamedText

abbrev Text := List Char

/-! ## Names -/

/-- The lower case of an ASCII letter. -/
def toLower (value : Char) : Char := if 'A' ≤ value ∧ value ≤ 'Z' then Char.ofNat (value.toNat - 65 + 97) else value

/-- `EqualsConfigName`. -/
def equalsConfigName : Text → Text → Bool
  | [], right => right.all (· = '_')
  | value :: left, right =>
    if value = '_' then equalsConfigName left right
    else
      match right.dropWhile (· = '_') with
      | [] => false
      | other :: right => toLower value = toLower other && equalsConfigName left right

/-- What the rule sees of a name. -/
def configNameForm (name : Text) : Text := (name.filter (· ≠ '_')).map toLower

/-- `kHostKeyNames`. -/
def kHostKeyNames : List (Text × Keycode) :=
  [("A", 0x61), ("B", 0x62), ("C", 0x63), ("D", 0x64), ("E", 0x65), ("F", 0x66), ("G", 0x67), ("H", 0x68),
    ("I", 0x69), ("J", 0x6A), ("K", 0x6B), ("L", 0x6C), ("M", 0x6D), ("N", 0x6E), ("O", 0x6F), ("P", 0x70),
    ("Q", 0x71), ("R", 0x72), ("S", 0x73), ("T", 0x74), ("U", 0x75), ("V", 0x76), ("W", 0x77), ("X", 0x78),
    ("Y", 0x79), ("Z", 0x7A),
    ("0", 0x30), ("1", 0x31), ("2", 0x32), ("3", 0x33), ("4", 0x34), ("5", 0x35), ("6", 0x36), ("7", 0x37),
    ("8", 0x38), ("9", 0x39),
    ("F1", 0x4000003A), ("F2", 0x4000003B), ("F3", 0x4000003C), ("F4", 0x4000003D), ("F5", 0x4000003E),
    ("F6", 0x4000003F), ("F7", 0x40000040), ("F8", 0x40000041), ("F9", 0x40000042), ("F10", 0x40000043),
    ("F11", 0x40000044), ("F12", 0x40000045),
    ("Keypad0", 0x40000062), ("Keypad1", 0x40000059), ("Keypad2", 0x4000005A), ("Keypad3", 0x4000005B),
    ("Keypad4", 0x4000005C), ("Keypad5", 0x4000005D), ("Keypad6", 0x4000005E), ("Keypad7", 0x4000005F),
    ("Keypad8", 0x40000060), ("Keypad9", 0x40000061), ("KeypadEnter", kKeyKeypadEnter),
    ("KeypadPlus", 0x40000057), ("KeypadMinus", 0x40000056), ("KeypadMultiply", 0x40000055),
    ("KeypadDivide", 0x40000054), ("KeypadPeriod", 0x40000063),
    ("Up", 0x40000052), ("Down", 0x40000051), ("Left", 0x40000050), ("Right", 0x4000004F), ("Home", 0x4000004A),
    ("End", 0x4000004D), ("PageUp", 0x4000004B), ("PageDown", 0x4000004E), ("Insert", 0x40000049),
    ("Delete", 0x7F), ("Clear", 0x4000009C),
    ("Space", 0x20), ("Enter", kKeyReturn), ("Tab", kKeyTab), ("Backspace", 0x8), ("Escape", 0x1B),
    ("LeftShift", 0x400000E1), ("RightShift", 0x400000E5), ("LeftCtrl", 0x400000E0), ("RightCtrl", 0x400000E4),
    ("LeftAlt", 0x400000E2), ("RightAlt", 0x400000E6)].map fun entry => (entry.1.toList, entry.2)

/-- `FindHostKeyByName`. -/
def findHostKeyByName (name : Text) : Option Keycode :=
  if name = [] then none else findByName equalsConfigName kHostKeyNames name

/-- `FindHostKeyName`, empty where there is none. -/
def findHostKeyName (keycode : Keycode) : Text := (nameOf kHostKeyNames keycode).getD []

/-- `kModifierNames`. -/
def kModifierNames : List (Text × Keymod) :=
  [("Ctrl", 0xC0), ("Shift", 0x3), ("Alt", kKeymodAlt), ("LeftCtrl", 0x40), ("RightCtrl", 0x80), ("LeftShift", 0x1),
    ("RightShift", 0x2), ("LeftAlt", 0x100), ("RightAlt", 0x200)].map fun entry => (entry.1.toList, entry.2)

/-- `FindModifier`. -/
def findModifier (name : Text) : Option Keymod := findByName equalsConfigName kModifierNames name

/-- `FormatModifier`, empty where there is none. -/
def formatModifier (mask : Keymod) : Text := (nameOf kModifierNames mask).getD []

/-! ## Aliases -/

/-- `kMaxModifiersPerAlias`. -/
def kMaxModifiersPerAlias : ℕ := 3

/-- A character of `kWhitespace`. -/
def isWhitespace (value : Char) : Bool := value ∈ [' ', '\t', '\r', Char.ofNat 0x0C, Char.ofNat 0x0B]

/-- A text in quotes. -/
def quoted (text : Text) : Text := '"' :: text ++ ['"']

/-- Every modifier so far. -/
def requiredUnion (required : List Keymod) : Keymod := required.foldl (· ||| ·) 0

/-- The tokens of an alias, of which the last one is the base key. -/
def parseTokens (trimmed : Text) : List Keymod → List Text → Except Text HostKeyAlias
  | _, [] => .error ("empty token in ".toList ++ quoted trimmed)
  | required, token :: tokens =>
    let token := trim isWhitespace token
    if token = [] then .error ("empty token in ".toList ++ quoted trimmed)
    else if tokens = [] then
      match findHostKeyByName token with
      | none => .error ("unknown key name ".toList ++ quoted token)
      | some keycode =>
        .ok
          { keycode := keycode
            required := required
            forbidden := if required ≠ [] then kConfigurableModifierMask &&& ~~~requiredUnion required else 0 }
    else
      match findModifier token with
      | none => .error (quoted token ++ " is not a modifier; write the base key last".toList)
      | some mask =>
        if required.length = kMaxModifiersPerAlias then .error ("too many modifiers in ".toList ++ quoted trimmed)
        else if requiredUnion required &&& mask ≠ 0 then .error ("duplicate modifier ".toList ++ quoted token)
        else parseTokens trimmed (required ++ [mask]) tokens

/-- `ParseHostKeyAlias`. -/
def parseHostKeyAlias (text : Text) : Except Text HostKeyAlias :=
  let trimmed := trim isWhitespace text
  if trimmed = [] then .error "empty key binding".toList
  else parseTokens trimmed [] (trimmed.splitOn '+')

/-- `FormatHostKeyAlias`, empty where a part has no name. -/
def formatHostKeyAlias (entry : HostKeyAlias) : Text :=
  if findHostKeyName entry.keycode = [] ∨ entry.required.any fun mask => formatModifier mask = [] then []
  else (entry.required.flatMap fun mask => formatModifier mask ++ ['+']) ++ findHostKeyName entry.keycode

/-! ## Equal names -/

theorem configNameForm_dropWhile (name : Text) :
    configNameForm (name.dropWhile (· = '_')) = configNameForm name := by
  induction name with
  | nil => rfl
  | cons value name ih =>
    by_cases hvalue : value = '_'
    · simpa [configNameForm, hvalue] using ih
    · rw [List.dropWhile_cons_of_neg (by simpa using hvalue)]

theorem configNameForm_cons {value : Char} (hvalue : value ≠ '_') (name : Text) :
    configNameForm (value :: name) = toLower value :: configNameForm name := by
  simp [configNameForm, hvalue]

/-- Names are equal when they agree up to case and underscores. -/
theorem equalsConfigName_iff (left right : Text) :
    equalsConfigName left right = true ↔ configNameForm left = configNameForm right := by
  induction left generalizing right with
  | nil =>
    simp only [equalsConfigName, configNameForm, List.all_eq_true, decide_eq_true_eq, List.filter_nil, List.map_nil]
    rw [eq_comm, List.map_eq_nil_iff, List.filter_eq_nil_iff]
    simp
  | cons value left ih =>
    rw [equalsConfigName]
    by_cases hvalue : value = '_'
    · rw [if_pos hvalue, ih]
      simp [configNameForm, hvalue]
    · rw [if_neg hvalue, configNameForm_cons hvalue, ← configNameForm_dropWhile right]
      cases hright : right.dropWhile (· = '_') with
      | nil => simp [configNameForm]
      | cons other rest =>
        have hother : other ≠ '_' := by
          have hhead := List.head?_dropWhile_not (· = '_') right
          rw [hright] at hhead
          simpa using hhead
        simp only [Bool.and_eq_true, decide_eq_true_eq, ih, configNameForm_cons hother, List.cons.injEq]

/-! ## Tables -/

/-- A text as a number, which the kernel compares in one step. -/
def textCode (text : Text) : ℕ := text.foldl (fun code value => 256 * code + value.toNat) 0

/-- The names of a table differ, and are words. -/
def WordTable {α : Type} (names : List (Text × α)) : Prop :=
  ((names.map fun entry => configNameForm entry.1).map textCode).Nodup ∧
    ∀ entry ∈ names, entry.1 ≠ [] ∧ entry.1.all Char.isAlphanum = true

theorem WordTable.differ {α : Type} {names : List (Text × α)} (h : WordTable names) :
    (names.map fun entry => configNameForm entry.1).Nodup :=
  h.1.of_map textCode

theorem WordTable.words {α : Type} {names : List (Text × α)} (h : WordTable names) :
    ∀ entry ∈ names, entry.1 ≠ [] ∧ ∀ value ∈ entry.1, value.isAlphanum = true := by
  simpa only [List.all_eq_true] using h.2

theorem kHostKeyNames_words : WordTable kHostKeyNames := by
  unfold WordTable
  decide +kernel

theorem kModifierNames_words : WordTable kModifierNames := by
  unfold WordTable
  decide

/-! ## Texts of aliases -/

/-- A character of the text of an alias. -/
def isAliasChar (value : Char) : Bool := value.isAlphanum || value = '+' || value = '_'

theorem isWhitespace_of_aliasChar {value : Char} (h : isAliasChar value = true) : isWhitespace value = false := by
  unfold isWhitespace
  rw [decide_eq_false_iff_not]
  intro hblank
  simp only [List.mem_cons, List.not_mem_nil, or_false] at hblank
  rcases hblank with rfl | rfl | rfl | rfl | rfl <;> revert h <;> decide

/-- Every modifier may follow those before it. -/
def Admissible : List Keymod → List Keymod → Prop
  | _, [] => True
  | required, mask :: masks =>
    (∃ name, nameOf kModifierNames mask = some name) ∧ required.length ≠ kMaxModifiersPerAlias ∧
      requiredUnion required &&& mask = 0 ∧ Admissible (required ++ [mask]) masks

theorem Admissible.length_le {required masks : List Keymod} (h : Admissible required masks)
    (hlength : required.length ≤ kMaxModifiersPerAlias) : (required ++ masks).length ≤ kMaxModifiersPerAlias := by
  induction masks generalizing required with
  | nil => rwa [List.append_nil]
  | cons mask masks ih =>
    have hnext := ih h.2.2.2 (by
      rw [List.length_append, List.length_singleton]
      exact Nat.lt_of_le_of_ne hlength h.2.1)
    rwa [List.append_assoc] at hnext

/-- An alias as the parser makes it. -/
structure Parsed (entry : HostKeyAlias) : Prop where
  key : ∃ name, nameOf kHostKeyNames entry.keycode = some name
  modifiers : Admissible [] entry.required
  forbidden_eq : entry.forbidden =
    if entry.required ≠ [] then kConfigurableModifierMask &&& ~~~requiredUnion entry.required else 0

theorem parseTokens_parsed {trimmed : Text} {required : List Keymod} {tokens : List Text} {entry : HostKeyAlias}
    (h : parseTokens trimmed required tokens = .ok entry) :
    (∃ name, nameOf kHostKeyNames entry.keycode = some name) ∧
      (∃ masks, entry.required = required ++ masks ∧ Admissible required masks) ∧
      entry.forbidden =
        if entry.required ≠ [] then kConfigurableModifierMask &&& ~~~requiredUnion entry.required else 0 := by
  induction tokens generalizing required with
  | nil => cases h
  | cons token tokens ih =>
    rw [parseTokens] at h
    by_cases hempty : trim isWhitespace token = []
    · rw [if_pos hempty] at h
      cases h
    rw [if_neg hempty] at h
    by_cases hlast : tokens = []
    · -- the base key
      rw [if_pos hlast] at h
      cases hkey : findHostKeyByName (trim isWhitespace token) with
      | none =>
        rw [hkey] at h
        cases h
      | some keycode =>
        rw [hkey] at h
        injection h with h
        subst h
        rw [findHostKeyByName, if_neg hempty] at hkey
        exact ⟨nameOf_of_findByName hkey, ⟨[], (List.append_nil _).symm, trivial⟩, rfl⟩
    · -- a modifier
      rw [if_neg hlast] at h
      cases hmask : findModifier (trim isWhitespace token) with
      | none =>
        rw [hmask] at h
        cases h
      | some mask =>
        simp only [hmask] at h
        split_ifs at h with hmany hduplicate
        obtain ⟨hkey, ⟨masks, hrequired, hmasks⟩, hforbidden⟩ := ih h
        rw [not_not] at hduplicate
        rw [List.append_assoc] at hrequired
        exact ⟨hkey, ⟨mask :: masks, hrequired, nameOf_of_findByName hmask, hmany, hduplicate, hmasks⟩, hforbidden⟩

theorem parseHostKeyAlias_parsed {text : Text} {entry : HostKeyAlias} (h : parseHostKeyAlias text = .ok entry) :
    Parsed entry := by
  unfold parseHostKeyAlias at h
  dsimp only at h
  split_ifs at h
  obtain ⟨hkey, ⟨masks, hrequired, hmasks⟩, hforbidden⟩ := parseTokens_parsed h
  rw [List.nil_append] at hrequired
  exact ⟨hkey, hrequired ▸ hmasks, hforbidden⟩

/-! ## Formatted aliases -/

theorem findHostKeyName_of_nameOf {keycode : Keycode} {name : Text} (h : nameOf kHostKeyNames keycode = some name) :
    findHostKeyName keycode = name := by rw [findHostKeyName, h, Option.getD_some]

theorem formatModifier_of_nameOf {mask : Keymod} {name : Text} (h : nameOf kModifierNames mask = some name) :
    formatModifier mask = name := by rw [formatModifier, h, Option.getD_some]

/-- A name is one token. -/
theorem trim_word {name : Text} (h : ∀ value ∈ name, value.isAlphanum = true) : trim isWhitespace name = name :=
  (Bare.of_forall fun value hvalue => isWhitespace_of_aliasChar (by simp [isAliasChar, h value hvalue])).trim_eq

/-- The names of an alias's modifiers and of its key. -/
def aliasTokens (entry : HostKeyAlias) : List Text :=
  entry.required.map formatModifier ++ [findHostKeyName entry.keycode]

section
variable {masks required : List Keymod}

theorem Admissible.named (h : Admissible required masks) :
    ∀ mask ∈ masks, formatModifier mask ≠ [] ∧ ∀ value ∈ formatModifier mask, value.isAlphanum = true := by
  induction masks generalizing required with
  | nil => exact fun _ hmask => absurd hmask List.not_mem_nil
  | cons mask masks ih =>
    intro other hother
    rcases List.mem_cons.mp hother with rfl | hother
    · obtain ⟨name, hname⟩ := h.1
      rw [formatModifier_of_nameOf hname]
      exact kModifierNames_words.words _ (mem_of_nameOf hname)
    · exact ih h.2.2.2 other hother

/-- The tokens of the modifiers are read back one by one. -/
theorem parseTokens_formatted {trimmed key : Text} {keycode : Keycode} (hkey : nameOf kHostKeyNames keycode = some key)
    (h : Admissible required masks) :
    parseTokens trimmed required (masks.map formatModifier ++ [key]) =
      .ok
        { keycode := keycode
          required := required ++ masks
          forbidden := if required ++ masks ≠ [] then kConfigurableModifierMask &&& ~~~requiredUnion (required ++ masks)
            else 0 } := by
  induction masks generalizing required with
  | nil =>
    obtain ⟨hne, hword⟩ := kHostKeyNames_words.words _ (mem_of_nameOf hkey)
    have hfound := findByName_nameOf equalsConfigName_iff kHostKeyNames_words.differ hkey
    rw [List.map_nil, List.nil_append, parseTokens, trim_word hword]
    simp only [hne, if_false, if_true, findHostKeyByName, hfound, List.append_nil]
  | cons mask masks ih =>
    obtain ⟨⟨name, hname⟩, hmany, hdisjoint, hrest⟩ := h
    obtain ⟨hne, hword⟩ := kModifierNames_words.words _ (mem_of_nameOf hname)
    have hfound := findByName_nameOf equalsConfigName_iff kModifierNames_words.differ hname
    have hmore : masks.map formatModifier ++ [key] ≠ [] := by simp
    have hrest' := ih hrest
    rw [List.append_assoc, List.singleton_append] at hrest'
    rw [List.map_cons, List.cons_append, parseTokens, formatModifier_of_nameOf hname, trim_word hword]
    simp only [hne, if_false, hmore, findModifier, hfound, hmany, hdisjoint, ne_eq, not_true, hrest']

end

namespace Parsed

variable {entry : HostKeyAlias} (h : Parsed entry)
include h

theorem aliasTokens_words : ∀ token ∈ aliasTokens entry, token ≠ [] ∧ ∀ value ∈ token, value.isAlphanum = true := by
  intro token htoken
  rcases List.mem_append.mp htoken with hmask | hkey
  · obtain ⟨mask, hmem, rfl⟩ := List.mem_map.mp hmask
    exact h.modifiers.named mask hmem
  · obtain ⟨name, hname⟩ := h.key
    rw [List.mem_singleton.mp hkey, findHostKeyName_of_nameOf hname]
    exact kHostKeyNames_words.words _ (mem_of_nameOf hname)

/-- Every part has a name, so the text is written. -/
theorem formatHostKeyAlias_eq : formatHostKeyAlias entry =
    (entry.required.flatMap fun mask => formatModifier mask ++ ['+']) ++ findHostKeyName entry.keycode := by
  have hkey : findHostKeyName entry.keycode ≠ [] := (h.aliasTokens_words _ (by simp [aliasTokens])).1
  have hmasks : ¬(entry.required.any fun mask => decide (formatModifier mask = [])) = true := by
    rw [List.any_eq_true]
    rintro ⟨mask, hmask, hnone⟩
    exact (h.modifiers.named mask hmask).1 (of_decide_eq_true hnone)
  rw [formatHostKeyAlias, if_neg (not_or.mpr ⟨hkey, hmasks⟩)]

theorem formatHostKeyAlias_eq_intercalate : formatHostKeyAlias entry = ['+'].intercalate (aliasTokens entry) := by
  rw [h.formatHostKeyAlias_eq, aliasTokens]
  induction entry.required with
  | nil => simp
  | cons mask masks ih =>
    rw [List.flatMap_cons, List.append_assoc, ih, List.map_cons, List.cons_append,
      List.intercalate_cons_of_ne_nil (by simp)]

theorem formatHostKeyAlias_chars : ∀ value ∈ formatHostKeyAlias entry, isAliasChar value = true := by
  intro value hvalue
  have hwords := h.aliasTokens_words
  rw [h.formatHostKeyAlias_eq, List.mem_append, List.mem_flatMap] at hvalue
  have hword : ∀ token ∈ aliasTokens entry, value ∈ token → isAliasChar value = true := by
    intro token htoken hmem
    simp [isAliasChar, (hwords token htoken).2 value hmem]
  rcases hvalue with ⟨mask, hmask, hvalue⟩ | hvalue
  · rcases List.mem_append.mp hvalue with hname | hplus
    · exact hword _ (List.mem_append_left _ (List.mem_map_of_mem hmask)) hname
    · rw [List.mem_singleton.mp hplus]
      decide
  · exact hword _ (List.mem_append_right _ (List.mem_singleton_self _)) hvalue

theorem formatHostKeyAlias_ne_nil : formatHostKeyAlias entry ≠ [] := by
  have hkey : findHostKeyName entry.keycode ≠ [] := (h.aliasTokens_words _ (by simp [aliasTokens])).1
  rw [h.formatHostKeyAlias_eq]
  exact List.append_ne_nil_of_right_ne_nil _ hkey

/-- The text of an alias is read back as it. -/
theorem parseHostKeyAlias_formatHostKeyAlias : parseHostKeyAlias (formatHostKeyAlias entry) = .ok entry := by
  obtain ⟨key, hkey⟩ := h.key
  have htrim : trim isWhitespace (formatHostKeyAlias entry) = formatHostKeyAlias entry :=
    (Bare.of_forall fun value hvalue => isWhitespace_of_aliasChar (h.formatHostKeyAlias_chars value hvalue)).trim_eq
  have hsplit : (formatHostKeyAlias entry).splitOn '+' = aliasTokens entry := by
    rw [h.formatHostKeyAlias_eq_intercalate]
    refine List.splitOn_intercalate '+' (fun token htoken hplus => ?_) (by simp [aliasTokens])
    exact absurd ((h.aliasTokens_words token htoken).2 '+' hplus) (by decide)
  rw [parseHostKeyAlias, htrim, if_neg h.formatHostKeyAlias_ne_nil, hsplit, aliasTokens,
    findHostKeyName_of_nameOf hkey, parseTokens_formatted hkey h.modifiers, List.nil_append, ← h.forbidden_eq]

end Parsed

end Repiu.Input
