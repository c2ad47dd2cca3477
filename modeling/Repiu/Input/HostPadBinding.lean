import Repiu.Input.HostKeyBinding

/-!
# Pad controls in a configuration

The text of a gamepad or joystick control (`host_pad_binding.cpp`).
-/

namespace Repiu.Input

open Engine NamedText

deriving instance DecidableEq for HostPadAlias

/-! ## Names -/

/-- `kButtonNames`. -/
def kButtonNames : List (Text × ℕ) :=
  [("A", 0), ("B", 1), ("X", 2), ("Y", 3), ("Back", 4), ("Guide", 5), ("Start", 6), ("LeftStick", 7),
    ("RightStick", 8), ("LeftShoulder", 9), ("RightShoulder", 10), ("DpadUp", 11), ("DpadDown", 12), ("DpadLeft", 13),
    ("DpadRight", 14), ("Misc1", 15), ("Touchpad", 20)].map fun entry => (entry.1.toList, entry.2)

/-- `kButtonSynonyms`. -/
def kButtonSynonyms : List (Text × ℕ) :=
  [("South", 0), ("East", 1), ("West", 2), ("North", 3)].map fun entry => (entry.1.toList, entry.2)

/-- `kHatDirections`. -/
def kHatDirections : List (Text × BitVec 8) :=
  [("Up", 0x1), ("Down", 0x4), ("Left", 0x8), ("Right", 0x2)].map fun entry => (entry.1.toList, entry.2)

/-! ## Reading -/

/-- `Normalize`. -/
def normalize (text : Text) : Text := (text.filter fun value => value ∉ ['_', ' ', '\t']).map toLower

/-- `IsDigit`. -/
def isDigit (value : Char) : Bool := '0' ≤ value ∧ value ≤ '9'

/-- The value of decimal digits. -/
def digitsValue (digits : Text) : ℕ := digits.foldl (fun result digit => result * 10 + (digit.toNat - 48)) 0

/-- `ReadNumber`: at most four digits. -/
def readNumber (text : Text) : Option (ℕ × Text) :=
  let digits := (text.take 4).takeWhile isDigit
  if digits = [] then none else some (digitsValue digits, text.drop digits.length)

/-- `LooksLikeHostPadAlias`. -/
def looksLikeHostPadAlias (text : Text) : Bool :=
  let normalized := normalize text
  (normalized.take 3 = "pad".toList ∨ normalized.take 3 = "joy".toList) ∧ (normalized.drop 3).head?.any isDigit

/-- What stands behind the number of a gamepad. -/
def parseGamepadControl (slot : ℕ) (rest : Text) : Except Text HostPadAlias :=
  if equalsConfigName rest "LeftTrigger".toList then .ok { kind := .kGamepadTrigger, slot := slot, control := 0 }
  else if equalsConfigName rest "RightTrigger".toList then .ok { kind := .kGamepadTrigger, slot := slot, control := 1 }
  else
    match findByName equalsConfigName kButtonNames rest with
    | some button => .ok { kind := .kGamepadButton, slot := slot, control := button }
    | none =>
      match findByName equalsConfigName kButtonSynonyms rest with
      | some button => .ok { kind := .kGamepadButton, slot := slot, control := button }
      | none => .error "unknown gamepad button".toList

/-- What stands behind the number of a joystick. -/
def parseJoystickControl (slot : ℕ) (rest : Text) : Except Text HostPadAlias :=
  if rest.take 6 = "button".toList then
    match readNumber (rest.drop 6) with
    | some (button, []) =>
      if button < 1 ∨ kMaxJoystickButtons < button then .error "joystick button must be 1 to 32".toList
      else .ok { kind := .kJoystickButton, slot := slot, control := button - 1 }
    | _ => .error "expected Joy<N>_Button<K>".toList
  else if rest.take 3 = "hat".toList then
    match readNumber (rest.drop 3) with
    | none => .error "expected Joy<N>_Hat<H><Up|Down|Left|Right>".toList
    | some (hat, direction) =>
      if hat < 1 ∨ kMaxJoystickHats < hat then .error "joystick hat must be 1 to 4".toList
      else
        match findByName equalsConfigName kHatDirections direction with
        | some bit => .ok { kind := .kJoystickHat, slot := slot, control := hat - 1, hatDirection := bit }
        | none => .error "hat direction must be Up, Down, Left or Right".toList
  else .error "expected Joy<N>_Button<K> or Joy<N>_Hat<H><Dir>".toList

/-- The control of a normalized text. -/
def parseControl (normalized : Text) : Except Text HostPadAlias :=
  let gamepad := normalized.take 3 = "pad".toList
  let (device, rest) := (readNumber (normalized.drop 3)).getD (0, normalized.drop 3)
  if device < 1 ∨ (if gamepad then kMaxGamepadSlots else kMaxJoystickSlots) < device then
    .error (if gamepad then "gamepad number must be 1 to 4" else "joystick number must be 1 to 8").toList
  else if gamepad then parseGamepadControl (device - 1) rest
  else parseJoystickControl (device - 1) rest

/-- `ParseHostPadAlias`. -/
def parseHostPadAlias (text : Text) : Except Text HostPadAlias :=
  (if !looksLikeHostPadAlias text then .error "not a Pad<N>_ or Joy<N>_ name".toList
    else parseControl (normalize text)).mapError fun reason => quoted text ++ ": ".toList ++ reason

/-! ## Writing -/

/-- A number in decimal. -/
def decimal (n : ℕ) : Text := Nat.toDigits 10 n

/-- `FormatHostPadAlias`, empty where a part has no name. -/
def formatHostPadAlias (entry : HostPadAlias) : Text :=
  match entry.kind with
  | .kGamepadButton =>
    match nameOf kButtonNames entry.control with
    | some name => "Pad".toList ++ decimal (entry.slot + 1) ++ "_".toList ++ name
    | none => []
  | .kGamepadTrigger =>
    "Pad".toList ++ decimal (entry.slot + 1) ++ "_".toList ++
      (if entry.control = 0 then "LeftTrigger" else "RightTrigger").toList
  | .kJoystickButton =>
    "Joy".toList ++ decimal (entry.slot + 1) ++ "_Button".toList ++ decimal (entry.control + 1)
  | .kJoystickHat =>
    match nameOf kHatDirections entry.hatDirection with
    | some name => "Joy".toList ++ decimal (entry.slot + 1) ++ "_Hat".toList ++ decimal (entry.control + 1) ++ name
    | none => []
  | .kNone => []

/-! ## What the parser gives -/

/-- An alias as the parser makes it. -/
def ParsedPad (entry : HostPadAlias) : Prop :=
  match entry.kind with
  | .kGamepadButton =>
    entry.slot < kMaxGamepadSlots ∧ (∃ name, nameOf kButtonNames entry.control = some name) ∧ entry.hatDirection = 0
  | .kGamepadTrigger => entry.slot < kMaxGamepadSlots ∧ entry.control < 2 ∧ entry.hatDirection = 0
  | .kJoystickButton =>
    entry.slot < kMaxJoystickSlots ∧ entry.control < kMaxJoystickButtons ∧ entry.hatDirection = 0
  | .kJoystickHat =>
    entry.slot < kMaxJoystickSlots ∧ entry.control < kMaxJoystickHats ∧
      ∃ name, nameOf kHatDirections entry.hatDirection = some name
  | .kNone => False

/-- A synonym stands for a button that has a name. -/
theorem kButtonSynonyms_named : ∀ entry ∈ kButtonSynonyms, (nameOf kButtonNames entry.2).isSome := by decide

theorem parseGamepadControl_parsed {slot : ℕ} {rest : Text} {entry : HostPadAlias} (hslot : slot < kMaxGamepadSlots)
    (h : parseGamepadControl slot rest = .ok entry) : ParsedPad entry := by
  unfold parseGamepadControl at h
  split_ifs at h
  · injection h with h
    subst h
    exact ⟨hslot, Nat.zero_lt_two, rfl⟩
  · injection h with h
    subst h
    exact ⟨hslot, Nat.one_lt_two, rfl⟩
  · cases hbutton : findByName equalsConfigName kButtonNames rest with
    | some button =>
      simp only [hbutton] at h
      injection h with h
      subst h
      exact ⟨hslot, nameOf_of_findByName hbutton, rfl⟩
    | none =>
      simp only [hbutton] at h
      cases hsynonym : findByName equalsConfigName kButtonSynonyms rest with
      | none =>
        rw [hsynonym] at h
        cases h
      | some button =>
        rw [hsynonym] at h
        injection h with h
        subst h
        obtain ⟨name, hname⟩ := nameOf_of_findByName hsynonym
        exact ⟨hslot, Option.isSome_iff_exists.mp (kButtonSynonyms_named _ (mem_of_nameOf hname)), rfl⟩

theorem parseJoystickControl_parsed {slot : ℕ} {rest : Text} {entry : HostPadAlias} (hslot : slot < kMaxJoystickSlots)
    (h : parseJoystickControl slot rest = .ok entry) : ParsedPad entry := by
  unfold parseJoystickControl at h
  split_ifs at h with hbutton hhat
  · split at h
    · split_ifs at h with hrange
      injection h with h
      subst h
      exact ⟨hslot, by show _ - 1 < _; omega, rfl⟩
    · cases h
  · split at h
    · cases h
    · split_ifs at h with hrange
      split at h
      case h_2 => cases h
      case h_1 bit hbit =>
        injection h with h
        subst h
        exact ⟨hslot, by show _ - 1 < _; omega, nameOf_of_findByName hbit⟩

theorem parseControl_parsed {normalized : Text} {entry : HostPadAlias} (h : parseControl normalized = .ok entry) :
    ParsedPad entry := by
  unfold parseControl at h
  generalize (readNumber (normalized.drop 3)).getD (0, normalized.drop 3) = read at h
  obtain ⟨device, rest⟩ := read
  by_cases hgamepad : normalized.take 3 = "pad".toList
  · simp only [hgamepad, if_true] at h
    split_ifs at h with hrange
    exact parseGamepadControl_parsed (by omega) h
  · simp only [hgamepad, if_false] at h
    split_ifs at h with hrange
    exact parseJoystickControl_parsed (by omega) h

theorem parseHostPadAlias_parsed {text : Text} {entry : HostPadAlias} (h : parseHostPadAlias text = .ok entry) :
    ParsedPad entry := by
  unfold parseHostPadAlias at h
  split_ifs at h with hlooks
  · cases h
  · cases hcontrol : parseControl (normalize text) with
    | error reason =>
      rw [hcontrol] at h
      cases h
    | ok control =>
      rw [hcontrol] at h
      injection h with h
      subst h
      exact parseControl_parsed hcontrol

/-! ## Reading what was written -/

theorem normalize_append (front back : Text) : normalize (front ++ back) = normalize front ++ normalize back := by
  simp [normalize]

/-- The digits of the numbers in use. -/
theorem decimal_digits : ∀ n < 100, decimal n ≠ [] ∧ (decimal n).length ≤ 4 ∧ (decimal n).all isDigit ∧
    digitsValue (decimal n) = n ∧ normalize (decimal n) = decimal n ∧ (decimal n).all isAliasChar := by
  decide +kernel

/-- A number is read up to what is no digit. -/
theorem readNumber_decimal {n : ℕ} (hn : n < 100) {rest : Text} (hrest : ∀ value ∈ rest.head?, isDigit value = false) :
    readNumber (decimal n ++ rest) = some (n, rest) := by
  obtain ⟨hne, hlength, hdigits, hvalue, -⟩ := decimal_digits n hn
  have htake : ((decimal n ++ rest).take 4).takeWhile isDigit = decimal n := by
    rw [List.take_append, List.take_of_length_le hlength,
      List.takeWhile_append_of_pos (List.all_eq_true.mp hdigits)]
    cases hfew : rest.take (4 - (decimal n).length) with
    | nil => rw [List.takeWhile_nil, List.append_nil]
    | cons value more =>
      have hhead : value ∈ rest.head? := by
        cases rest with
        | nil => simp at hfew
        | cons first rest =>
          cases hcount : 4 - (decimal n).length with
          | zero => simp [hcount] at hfew
          | succ count =>
            rw [hcount, List.take_succ_cons, List.cons.injEq] at hfew
            rw [hfew.1]
            rfl
      rw [List.takeWhile_cons_of_neg (by rw [hrest value hhead]; exact Bool.false_ne_true), List.append_nil]
  rw [readNumber, htake]
  simp only [hne, if_false, hvalue, List.drop_left]

/-- A text with this normal form names the control of the device with this number. -/
theorem parseHostPadAlias_of_normalize {text tag rest : Text} {device : ℕ} (hdevice : device < 100)
    (htag : tag = "pad".toList ∨ tag = "joy".toList) (h : normalize text = tag ++ (decimal device ++ rest)) :
    looksLikeHostPadAlias text = true ∧
      parseHostPadAlias text =
        (parseControl (tag ++ (decimal device ++ rest))).mapError fun reason =>
          quoted text ++ ": ".toList ++ reason := by
  have hlooks : looksLikeHostPadAlias text = true := by
    obtain ⟨hne, -, hdigits, -⟩ := decimal_digits device hdevice
    unfold looksLikeHostPadAlias
    rw [h]
    cases hdecimal : decimal device with
    | nil => exact absurd hdecimal hne
    | cons digit digits =>
      rw [hdecimal] at hdigits
      have hdigit : isDigit digit = true := List.all_eq_true.mp hdigits digit List.mem_cons_self
      rcases htag with rfl | rfl <;> simpa using hdigit
  refine ⟨hlooks, ?_⟩
  rw [parseHostPadAlias, hlooks, h]
  rfl

theorem parseControl_pad {slot : ℕ} (hslot : slot < kMaxGamepadSlots) {rest : Text}
    (hrest : ∀ value ∈ rest.head?, isDigit value = false) :
    parseControl ("pad".toList ++ (decimal (slot + 1) ++ rest)) = parseGamepadControl slot rest := by
  have hshort : slot + 1 < 100 := lt_of_lt_of_le (Nat.add_lt_add_right hslot 1) (by decide)
  have hrange : ¬(slot + 1 < 1 ∨ kMaxGamepadSlots < slot + 1) := by omega
  have hdrop : ("pad".toList ++ (decimal (slot + 1) ++ rest)).drop 3 = decimal (slot + 1) ++ rest := rfl
  have htake : ("pad".toList ++ (decimal (slot + 1) ++ rest)).take 3 = "pad".toList := rfl
  rw [parseControl, hdrop, htake, readNumber_decimal hshort hrest]
  simp only [Option.getD_some, if_true, hrange, if_false, Nat.add_sub_cancel]

theorem parseControl_joy {slot : ℕ} (hslot : slot < kMaxJoystickSlots) {rest : Text}
    (hrest : ∀ value ∈ rest.head?, isDigit value = false) :
    parseControl ("joy".toList ++ (decimal (slot + 1) ++ rest)) = parseJoystickControl slot rest := by
  have hshort : slot + 1 < 100 := lt_of_lt_of_le (Nat.add_lt_add_right hslot 1) (by decide)
  have hrange : ¬(slot + 1 < 1 ∨ kMaxJoystickSlots < slot + 1) := by omega
  have hdrop : ("joy".toList ++ (decimal (slot + 1) ++ rest)).drop 3 = decimal (slot + 1) ++ rest := rfl
  have htake : ("joy".toList ++ (decimal (slot + 1) ++ rest)).take 3 = "joy".toList := rfl
  have hkind : "joy".toList ≠ "pad".toList := by decide
  rw [parseControl, hdrop, htake, readNumber_decimal hshort hrest]
  simp only [Option.getD_some, hkind, hrange, if_false, Nat.add_sub_cancel]

/-- The gamepad controls and the directions are read back, whatever the number in front. -/
theorem kButtonNames_read : ∀ slot < kMaxGamepadSlots, ∀ entry ∈ kButtonNames,
    (∀ value ∈ (normalize entry.1).head?, isDigit value = false) ∧ entry.1.all isAliasChar ∧
      parseGamepadControl slot (normalize entry.1) =
        .ok { kind := .kGamepadButton, slot := slot, control := entry.2 } := by
  simp only [Option.mem_def, ← Bool.not_eq_true', ← Option.all_eq_true]
  decide

theorem triggers_read : ∀ slot < kMaxGamepadSlots,
    parseGamepadControl slot (normalize "LeftTrigger".toList) =
        .ok { kind := .kGamepadTrigger, slot := slot, control := 0 } ∧
      parseGamepadControl slot (normalize "RightTrigger".toList) =
        .ok { kind := .kGamepadTrigger, slot := slot, control := 1 } := by
  decide

theorem kHatDirections_read : ∀ entry ∈ kHatDirections,
    (∀ value ∈ (normalize entry.1).head?, isDigit value = false) ∧ entry.1.all isAliasChar ∧
      findByName equalsConfigName kHatDirections (normalize entry.1) = some entry.2 := by
  simp only [Option.mem_def, ← Bool.not_eq_true', ← Option.all_eq_true]
  decide

theorem parseJoystickControl_button {slot control : ℕ} (hcontrol : control < kMaxJoystickButtons) :
    parseJoystickControl slot ("button".toList ++ decimal (control + 1)) =
      .ok { kind := .kJoystickButton, slot := slot, control := control } := by
  have hshort : control + 1 < 100 := lt_of_lt_of_le (Nat.add_lt_add_right hcontrol 1) (by decide)
  have hread : readNumber (decimal (control + 1)) = some (control + 1, []) := by
    have := readNumber_decimal hshort (show ∀ value ∈ ([] : Text).head?, isDigit value = false by simp)
    rwa [List.append_nil] at this
  have hrange : ¬(control + 1 < 1 ∨ kMaxJoystickButtons < control + 1) := by omega
  have hdrop : ("button".toList ++ decimal (control + 1)).drop 6 = decimal (control + 1) := rfl
  have htake : ("button".toList ++ decimal (control + 1)).take 6 = "button".toList := rfl
  rw [parseJoystickControl, htake, if_pos rfl, hdrop, hread]
  simp only [hrange, if_false, Nat.add_sub_cancel]

theorem parseJoystickControl_hat {slot control : ℕ} (hcontrol : control < kMaxJoystickHats) {name : Text}
    {bit : BitVec 8} (hname : nameOf kHatDirections bit = some name) :
    parseJoystickControl slot ("hat".toList ++ (decimal (control + 1) ++ normalize name)) =
      .ok { kind := .kJoystickHat, slot := slot, control := control, hatDirection := bit } := by
  obtain ⟨hhead, -, hdirection⟩ := kHatDirections_read _ (mem_of_nameOf hname)
  have hshort : control + 1 < 100 := lt_of_lt_of_le (Nat.add_lt_add_right hcontrol 1) (by decide)
  have hread := readNumber_decimal hshort hhead
  have hrange : ¬(control + 1 < 1 ∨ kMaxJoystickHats < control + 1) := by omega
  have hdrop : ("hat".toList ++ (decimal (control + 1) ++ normalize name)).drop 3 =
      decimal (control + 1) ++ normalize name := rfl
  have hhat : ("hat".toList ++ (decimal (control + 1) ++ normalize name)).take 3 = "hat".toList := rfl
  have hbutton : ("hat".toList ++ (decimal (control + 1) ++ normalize name)).take 6 ≠ "button".toList := by
    intro heq
    have := congrArg List.head? heq
    cases this
  rw [parseJoystickControl, if_neg hbutton, hhat, if_pos rfl, hdrop, hread]
  simp only [hrange, if_false, hdirection, Nat.add_sub_cancel]

/-- A written text is not empty, has no separators, is taken for a pad control, and reads back as its alias. -/
structure ReadsBack (entry : HostPadAlias) : Prop where
  chars : ∀ value ∈ formatHostPadAlias entry, isAliasChar value = true
  looks : looksLikeHostPadAlias (formatHostPadAlias entry) = true
  parse_eq : parseHostPadAlias (formatHostPadAlias entry) = .ok entry

/-- What a text of three parts, of which the second is the number of the device, is read as. -/
theorem ReadsBack.of_parts {entry : HostPadAlias} (tag front back : Text) (hdevice : entry.slot + 1 < 100)
    (hformat : formatHostPadAlias entry = front ++ decimal (entry.slot + 1) ++ back)
    (hchars : front.all isAliasChar ∧ back.all isAliasChar) (htag : tag = "pad".toList ∨ tag = "joy".toList)
    (hfront : normalize front = tag)
    (hcontrol : parseControl (tag ++ (decimal (entry.slot + 1) ++ normalize back)) = .ok entry) : ReadsBack entry := by
  obtain ⟨-, -, -, -, hdigits, hdigitChars⟩ := decimal_digits _ hdevice
  have hnormal : normalize (formatHostPadAlias entry) = tag ++ (decimal (entry.slot + 1) ++ normalize back) := by
    rw [hformat, normalize_append, normalize_append, hfront, hdigits, List.append_assoc]
  obtain ⟨hlooks, hparse⟩ := parseHostPadAlias_of_normalize hdevice htag hnormal
  refine ⟨?_, hlooks, ?_⟩
  · rw [hformat, ← List.all_eq_true, List.all_append, List.all_append, hchars.1, hchars.2, hdigitChars]
    rfl
  · rw [hparse, hcontrol]
    rfl

/-- What the parser gives reads back. -/
theorem ParsedPad.readsBack {entry : HostPadAlias} (h : ParsedPad entry) : ReadsBack entry := by
  obtain ⟨kind, slot, control, hatDirection⟩ := entry
  cases kind with
  | kNone => exact h.elim
  | kGamepadButton =>
    obtain ⟨hslot, ⟨name, hname⟩, hhat⟩ := h
    dsimp only at hslot hname hhat
    obtain ⟨hhead, hchars, hread⟩ := kButtonNames_read slot hslot _ (mem_of_nameOf hname)
    have hshort : slot + 1 < 100 := lt_of_lt_of_le (Nat.add_lt_add_right hslot 1) (by decide)
    have hback : normalize ("_".toList ++ name) = normalize name := by
      rw [normalize_append]
      rfl
    refine ReadsBack.of_parts "pad".toList "Pad".toList ("_".toList ++ name) hshort ?_ ⟨by decide, ?_⟩ (.inl rfl)
      (by decide) ?_
    · simp only [formatHostPadAlias, hname, List.append_assoc]
    · rw [List.all_append, hchars]
      rfl
    · rw [hback, parseControl_pad hslot hhead, hread, hhat]
  | kGamepadTrigger =>
    obtain ⟨hslot, hcontrol, hhat⟩ := h
    dsimp only at hslot hcontrol hhat
    have hshort : slot + 1 < 100 := lt_of_lt_of_le (Nat.add_lt_add_right hslot 1) (by decide)
    have hside : control = 0 ∨ control = 1 := by omega
    rcases hside with rfl | rfl
    · refine ReadsBack.of_parts "pad".toList "Pad".toList ("_".toList ++ "LeftTrigger".toList) hshort ?_
        ⟨by decide, by decide⟩ (.inl rfl) (by decide) ?_
      · simp only [formatHostPadAlias, if_true, List.append_assoc]
      · have hread := (triggers_read slot hslot).1
        rw [hhat, ← hread]
        refine parseControl_pad hslot (fun value hvalue => ?_)
        rw [← Option.some.inj hvalue]
        decide
    · refine ReadsBack.of_parts "pad".toList "Pad".toList ("_".toList ++ "RightTrigger".toList) hshort ?_
        ⟨by decide, by decide⟩ (.inl rfl) (by decide) ?_
      · simp only [formatHostPadAlias, Nat.one_ne_zero, if_false, List.append_assoc]
      · have hread := (triggers_read slot hslot).2
        rw [hhat, ← hread]
        refine parseControl_pad hslot (fun value hvalue => ?_)
        rw [← Option.some.inj hvalue]
        decide
  | kJoystickButton =>
    obtain ⟨hslot, hcontrol, hhat⟩ := h
    dsimp only at hslot hcontrol hhat
    have hshort : slot + 1 < 100 := lt_of_lt_of_le (Nat.add_lt_add_right hslot 1) (by decide)
    obtain ⟨-, -, -, -, hdigits, hdigitChars⟩ :=
      decimal_digits (control + 1) (lt_of_lt_of_le (Nat.add_lt_add_right hcontrol 1) (by decide))
    have hback : normalize ("_Button".toList ++ decimal (control + 1)) =
        "button".toList ++ decimal (control + 1) := by
      rw [normalize_append, hdigits]
      rfl
    have hhead : ∀ value ∈ ("button".toList ++ decimal (control + 1)).head?, isDigit value = false := by
      intro value hvalue
      rw [← Option.some.inj hvalue]
      decide
    refine ReadsBack.of_parts "joy".toList "Joy".toList ("_Button".toList ++ decimal (control + 1)) hshort ?_
      ⟨by decide, ?_⟩ (.inr rfl) (by decide) ?_
    · simp only [formatHostPadAlias, List.append_assoc]
    · rw [List.all_append, hdigitChars]
      rfl
    · rw [hback, parseControl_joy hslot hhead, parseJoystickControl_button hcontrol, hhat]
  | kJoystickHat =>
    obtain ⟨hslot, hcontrol, name, hname⟩ := h
    dsimp only at hslot hcontrol hname
    obtain ⟨-, hchars, -⟩ := kHatDirections_read _ (mem_of_nameOf hname)
    have hshort : slot + 1 < 100 := lt_of_lt_of_le (Nat.add_lt_add_right hslot 1) (by decide)
    obtain ⟨-, -, -, -, hdigits, hdigitChars⟩ :=
      decimal_digits (control + 1) (lt_of_lt_of_le (Nat.add_lt_add_right hcontrol 1) (by decide))
    have hback : normalize ("_Hat".toList ++ (decimal (control + 1) ++ name)) =
        "hat".toList ++ (decimal (control + 1) ++ normalize name) := by
      rw [normalize_append, normalize_append, hdigits]
      rfl
    have hhead : ∀ value ∈ ("hat".toList ++ (decimal (control + 1) ++ normalize name)).head?,
        isDigit value = false := by
      intro value hvalue
      rw [← Option.some.inj hvalue]
      decide
    refine ReadsBack.of_parts "joy".toList "Joy".toList ("_Hat".toList ++ (decimal (control + 1) ++ name)) hshort ?_
      ⟨by decide, ?_⟩ (.inr rfl) (by decide) ?_
    · simp only [formatHostPadAlias, hname, List.append_assoc]
    · rw [List.all_append, List.all_append, hdigitChars, hchars]
      rfl
    · rw [hback, parseControl_joy hslot hhead, parseJoystickControl_hat hcontrol hname]

end Repiu.Input
