import Repiu.Input.HostPadBinding

/-!
# Input bindings as text

A binding is read from the value of a configuration entry and written back (`jamma_input_bindings.cpp`): what is
written is read as the same keys and pad controls. Behind finalisation a plain key and a qualified one never answer
together.
-/

namespace Repiu.Input

open Engine NamedText

/-! ## Reading -/

/-- `kMaxAliasesPerInput`. -/
def kMaxAliasesPerInput : ℕ := 4

/-- A blank around an item. -/
def isItemBlank (value : Char) : Bool := value = ' ' ∨ value = '\t'

/-- What `ParseBindingValue` has read so far. -/
structure BindingValue where
  binding : JammaInputBinding := {}
  errors : List Text := []
  keysOverflowed : Bool := false
  padsOverflowed : Bool := false

namespace BindingValue

/-- A key, unless the list is full. -/
def pushKey (s : BindingValue) (key : HostKeyAlias) : BindingValue :=
  if s.binding.aliases.length = kMaxAliasesPerInput then { s with keysOverflowed := true }
  else { s with binding := { s.binding with aliases := s.binding.aliases ++ [key] } }

/-- A pad control, unless the list is full. -/
def pushPad (s : BindingValue) (pad : HostPadAlias) : BindingValue :=
  if s.binding.padAliases.length = kMaxAliasesPerInput then { s with padsOverflowed := true }
  else { s with binding := { s.binding with padAliases := s.binding.padAliases ++ [pad] } }

/-- One item. -/
def item (s : BindingValue) (element : Text) : BindingValue :=
  let item := trim isItemBlank element
  if item = [] then s
  else if looksLikeHostPadAlias item then
    match parseHostPadAlias item with
    | .error error => { s with errors := s.errors ++ [error] }
    | .ok pad => s.pushPad pad
  else
    match parseHostKeyAlias item with
    | .error error => { s with errors := s.errors ++ [error] }
    | .ok key => s.pushKey key

/-- The reports of a full list. -/
def overflowErrors (s : BindingValue) : List Text :=
  (if s.keysOverflowed then ["more than 4 keys; the extra ones are ignored".toList] else []) ++
    if s.padsOverflowed then ["more than 4 pad controls; the extra ones are ignored".toList] else []

end BindingValue

/-- `ParseBindingValue`: the binding and its errors. -/
def parseBindingValue (text : Text) : JammaInputBinding × List Text :=
  let s := (text.splitOn ',').foldl BindingValue.item {}
  (s.binding, s.errors ++ s.overflowErrors)

/-! ## Writing -/

/-- The texts of the aliases of a binding that have one. -/
def aliasTexts (binding : JammaInputBinding) : List Text :=
  (binding.aliases.map formatHostKeyAlias ++ binding.padAliases.map formatHostPadAlias).filter (· ≠ [])

/-- `FormatJammaBinding`. -/
def formatJammaBinding (bindings : ResolvedJammaBindings) (key : JammaInputKey) : Text :=
  if key = .count then [] else [',', ' '].intercalate (aliasTexts (bindings.inputs key))

/-! ## Finalisation -/

/-- `any_binding_uses_modifiers`. -/
def usesModifiers (bindings : ResolvedJammaBindings) : Bool :=
  jammaInputKeys.any fun key => (bindings.inputs key).aliases.any fun entry => entry.required ≠ []

/-- `FinalizeJammaBindings`, with the flag that it leaves. -/
def finalizeJammaBindings (bindings : ResolvedJammaBindings) : ResolvedJammaBindings × Bool :=
  (bindings.finalize, usesModifiers bindings)

/-! ## What is read -/

/-- A binding as the parser makes it. -/
structure ParsedBinding (binding : JammaInputBinding) : Prop where
  keys : ∀ entry ∈ binding.aliases, Parsed entry
  pads : ∀ entry ∈ binding.padAliases, ParsedPad entry
  keys_length : binding.aliases.length ≤ kMaxAliasesPerInput
  pads_length : binding.padAliases.length ≤ kMaxAliasesPerInput

theorem ParsedBinding.pushKey {s : BindingValue} (h : ParsedBinding s.binding) {key : HostKeyAlias}
    (hkey : Parsed key) : ParsedBinding (s.pushKey key).binding := by
  unfold BindingValue.pushKey
  split_ifs with hfull
  · exact h
  · refine { h with keys := ?_, keys_length := ?_ }
    · exact List.forall_mem_append.mpr ⟨h.keys, List.forall_mem_singleton.mpr hkey⟩
    · rw [List.length_append, List.length_singleton]
      exact Nat.lt_of_le_of_ne h.keys_length hfull

theorem ParsedBinding.pushPad {s : BindingValue} (h : ParsedBinding s.binding) {pad : HostPadAlias}
    (hpad : ParsedPad pad) : ParsedBinding (s.pushPad pad).binding := by
  unfold BindingValue.pushPad
  split_ifs with hfull
  · exact h
  · refine { h with pads := ?_, pads_length := ?_ }
    · exact List.forall_mem_append.mpr ⟨h.pads, List.forall_mem_singleton.mpr hpad⟩
    · rw [List.length_append, List.length_singleton]
      exact Nat.lt_of_le_of_ne h.pads_length hfull

theorem ParsedBinding.item {s : BindingValue} (h : ParsedBinding s.binding) (element : Text) :
    ParsedBinding (s.item element).binding := by
  unfold BindingValue.item
  dsimp only
  generalize trim isItemBlank element = item
  split_ifs
  · exact h
  · cases hpad : parseHostPadAlias item with
    | error error => exact h
    | ok pad => exact h.pushPad (parseHostPadAlias_parsed hpad)
  · cases hkey : parseHostKeyAlias item with
    | error error => exact h
    | ok key => exact h.pushKey (parseHostKeyAlias_parsed hkey)

theorem parseBindingValue_parsed (text : Text) : ParsedBinding (parseBindingValue text).1 := by
  have hfold : ∀ (elements : List Text) (s : BindingValue), ParsedBinding s.binding →
      ParsedBinding (elements.foldl BindingValue.item s).binding := by
    intro elements
    induction elements with
    | nil => exact fun _ h => h
    | cons element elements ih => exact fun s h => ih _ (h.item element)
  exact hfold _ {} ⟨nofun, nofun, Nat.zero_le _, Nat.zero_le _⟩

/-! ## Written and read back -/

section
variable {entry : HostKeyAlias}

/-- No name of a key begins like a pad control. -/
theorem kHostKeyNames_keys : ∀ entry ∈ kHostKeyNames, looksLikeHostPadAlias entry.1 = false := by decide

/-- Nor does a name of a modifier, whatever follows it. -/
theorem kModifierNames_keys : ∀ entry ∈ kModifierNames,
    3 ≤ (normalize entry.1).length ∧ (normalize entry.1).take 3 ≠ "pad".toList ∧
      (normalize entry.1).take 3 ≠ "joy".toList := by
  decide

theorem Parsed.not_looksLike (h : Parsed entry) : looksLikeHostPadAlias (formatHostKeyAlias entry) = false := by
  obtain ⟨key, hkey⟩ := h.key
  rw [h.formatHostKeyAlias_eq, findHostKeyName_of_nameOf hkey]
  cases hrequired : entry.required with
  | nil => exact kHostKeyNames_keys _ (mem_of_nameOf hkey)
  | cons mask masks =>
    have hadmissible := h.modifiers
    rw [hrequired] at hadmissible
    obtain ⟨⟨name, hname⟩, -⟩ := hadmissible
    obtain ⟨hlength, hpad, hjoy⟩ := kModifierNames_keys _ (mem_of_nameOf hname)
    unfold looksLikeHostPadAlias
    simp only [List.flatMap_cons, formatModifier_of_nameOf hname, List.append_assoc, normalize_append,
      List.take_append_of_le_length hlength, hpad, hjoy, or_self, false_and, decide_false]

theorem ReadsBack.ne_nil {pad : HostPadAlias} (h : ReadsBack pad) : formatHostPadAlias pad ≠ [] := by
  intro hnil
  have hlooks := h.looks
  rw [hnil] at hlooks
  cases hlooks

theorem trim_aliasText {text : Text} (h : ∀ value ∈ text, isAliasChar value = true) : trim isItemBlank text = text := by
  refine (Bare.of_forall fun value hvalue => decide_eq_false ?_).trim_eq
  rintro (rfl | rfl)
  · exact absurd (h _ hvalue) (by decide)
  · exact absurd (h _ hvalue) (by decide)

/-- What an item of a written text adds to the binding. -/
theorem item_formatHostKeyAlias (s : BindingValue) (h : Parsed entry) {element : Text}
    (helement : trim isItemBlank element = formatHostKeyAlias entry) : s.item element = s.pushKey entry := by
  unfold BindingValue.item
  simp only [helement, h.formatHostKeyAlias_ne_nil, if_false, h.not_looksLike, Bool.false_eq_true,
    h.parseHostKeyAlias_formatHostKeyAlias]

theorem item_formatHostPadAlias (s : BindingValue) {pad : HostPadAlias} (h : ReadsBack pad) {element : Text}
    (helement : trim isItemBlank element = formatHostPadAlias pad) : s.item element = s.pushPad pad := by
  unfold BindingValue.item
  simp only [helement, h.ne_nil, if_false, h.looks, if_true, h.parse_eq]

theorem foldl_formatHostKeyAlias {keys : List HostKeyAlias} {s : BindingValue} (h : ∀ key ∈ keys, Parsed key)
    (hfit : s.binding.aliases.length + keys.length ≤ kMaxAliasesPerInput) :
    (keys.map formatHostKeyAlias).foldl BindingValue.item s =
      { s with binding := { s.binding with aliases := s.binding.aliases ++ keys } } := by
  induction keys generalizing s with
  | nil => simp
  | cons key keys ih =>
    have hkey := h key List.mem_cons_self
    rw [List.length_cons] at hfit
    have hroom : s.binding.aliases.length ≠ kMaxAliasesPerInput := by omega
    rw [List.map_cons, List.foldl_cons,
      item_formatHostKeyAlias s hkey (trim_aliasText hkey.formatHostKeyAlias_chars), BindingValue.pushKey,
      if_neg hroom, ih (fun other hother => h other (List.mem_cons_of_mem _ hother))]
    · simp
    · simp only [List.length_append, List.length_singleton]
      omega

theorem foldl_formatHostPadAlias {pads : List HostPadAlias} {s : BindingValue} (h : ∀ pad ∈ pads, ReadsBack pad)
    (hfit : s.binding.padAliases.length + pads.length ≤ kMaxAliasesPerInput) :
    (pads.map formatHostPadAlias).foldl BindingValue.item s =
      { s with binding := { s.binding with padAliases := s.binding.padAliases ++ pads } } := by
  induction pads generalizing s with
  | nil => simp
  | cons pad pads ih =>
    have hpad := h pad List.mem_cons_self
    rw [List.length_cons] at hfit
    have hroom : s.binding.padAliases.length ≠ kMaxAliasesPerInput := by omega
    rw [List.map_cons, List.foldl_cons, item_formatHostPadAlias s hpad (trim_aliasText hpad.chars),
      BindingValue.pushPad, if_neg hroom, ih (fun other hother => h other (List.mem_cons_of_mem _ hother))]
    · simp
    · simp only [List.length_append, List.length_singleton]
      omega

/-- An item is read without the blanks around it. -/
theorem item_congr (s : BindingValue) {left right : Text} (h : trim isItemBlank left = trim isItemBlank right) :
    s.item left = s.item right := by
  unfold BindingValue.item
  rw [h]

/-- The items of a written list are its texts. -/
theorem foldl_splitOn {texts : List Text} (h : ∀ text ∈ texts, ∀ value ∈ text, isAliasChar value = true)
    (s : BindingValue) :
    (([',', ' '].intercalate texts).splitOn ',').foldl BindingValue.item s = texts.foldl BindingValue.item s := by
  have hcomma : ∀ text ∈ texts, ',' ∉ text := fun text htext hmem => absurd (h text htext ',' hmem) (by decide)
  cases texts with
  | nil => rfl
  | cons text texts =>
    rw [splitOn_intercalate_blank hcomma (by decide), List.foldl_cons, List.foldl_cons, List.foldl_map]
    refine List.foldl_ext _ _ _ fun t other _ => item_congr t ?_
    exact trim_cons_blank (by decide)

/-- What the parser makes is written as a text that it makes the same of. -/
theorem ParsedBinding.parse_format {binding : JammaInputBinding} (h : ParsedBinding binding) :
    parseBindingValue ([',', ' '].intercalate (aliasTexts binding)) = (binding, []) := by
  have hpads : ∀ pad ∈ binding.padAliases, ReadsBack pad := fun pad hpad => (h.pads pad hpad).readsBack
  have htexts : aliasTexts binding =
      binding.aliases.map formatHostKeyAlias ++ binding.padAliases.map formatHostPadAlias := by
    refine List.filter_eq_self.mpr fun text htext => ?_
    rcases List.mem_append.mp htext with hkey | hpad
    · obtain ⟨key, hmem, rfl⟩ := List.mem_map.mp hkey
      exact decide_eq_true (h.keys key hmem).formatHostKeyAlias_ne_nil
    · obtain ⟨pad, hmem, rfl⟩ := List.mem_map.mp hpad
      exact decide_eq_true (hpads pad hmem).ne_nil
  have hchars : ∀ text ∈ aliasTexts binding, ∀ value ∈ text, isAliasChar value = true := by
    intro text htext
    rw [htexts] at htext
    rcases List.mem_append.mp htext with hkey | hpad
    · obtain ⟨key, hmem, rfl⟩ := List.mem_map.mp hkey
      exact (h.keys key hmem).formatHostKeyAlias_chars
    · obtain ⟨pad, hmem, rfl⟩ := List.mem_map.mp hpad
      exact (hpads pad hmem).chars
  have hkeys := h.keys_length
  have hcontrols := h.pads_length
  unfold parseBindingValue
  rw [foldl_splitOn hchars, htexts, List.foldl_append,
    foldl_formatHostKeyAlias h.keys (by simpa using hkeys), foldl_formatHostPadAlias hpads (by simpa using hcontrols)]
  simp [BindingValue.overflowErrors]

end

/-! ## Behind finalisation -/

section
variable {bindings : ResolvedJammaBindings} {key : JammaInputKey}

theorem contended_keycode (aliases : List HostKeyAlias) (entry : HostKeyAlias) :
    (entry.contended aliases).keycode = entry.keycode := by
  unfold HostKeyAlias.contended
  split_ifs <;> rfl

theorem contended_required (aliases : List HostKeyAlias) (entry : HostKeyAlias) :
    (entry.contended aliases).required = entry.required := by
  unfold HostKeyAlias.contended
  split_ifs <;> rfl

theorem contended_of_qualified {entry : HostKeyAlias} (h : entry.required ≠ []) (aliases : List HostKeyAlias) :
    entry.contended aliases = entry := if_pos h

theorem contended_of_plain {entry : HostKeyAlias} (h : ¬entry.required ≠ []) (aliases : List HostKeyAlias) :
    entry.contended aliases =
      { entry with
        forbidden := ((aliases.filter (·.keycode = entry.keycode)).flatMap HostKeyAlias.required).foldl (· ||| ·) 0 } :=
  if_neg h

/-- What a plain alias is denied is asked for by the others, which finalisation does not change. -/
theorem contended_contended (aliases : List HostKeyAlias) (entry : HostKeyAlias) :
    (entry.contended aliases).contended (aliases.map (HostKeyAlias.contended aliases)) = entry.contended aliases := by
  by_cases hplain : entry.required ≠ []
  · rw [contended_of_qualified hplain, contended_of_qualified hplain]
  · have hsame : ((aliases.map (HostKeyAlias.contended aliases)).filter fun other =>
        decide (other.keycode = entry.keycode)).flatMap HostKeyAlias.required =
          (aliases.filter fun other => decide (other.keycode = entry.keycode)).flatMap HostKeyAlias.required := by
      rw [List.filter_map, List.flatMap_map]
      simp only [Function.comp_def, contended_keycode, contended_required]
    rw [contended_of_plain (by rwa [contended_required]), contended_keycode, hsame, contended_of_plain hplain]

/-- Every alias of every input. -/
def flattenedAliases (bindings : ResolvedJammaBindings) : List HostKeyAlias :=
  jammaInputKeys.flatMap fun key => (bindings.inputs key).aliases

theorem finalize_aliases (bindings : ResolvedJammaBindings) (key : JammaInputKey) :
    (bindings.finalize.inputs key).aliases =
      (bindings.inputs key).aliases.map (HostKeyAlias.contended (flattenedAliases bindings)) := rfl

theorem flattenedAliases_finalize (bindings : ResolvedJammaBindings) :
    flattenedAliases bindings.finalize =
      (flattenedAliases bindings).map (HostKeyAlias.contended (flattenedAliases bindings)) := by
  rw [flattenedAliases, flattenedAliases, List.map_flatMap]
  rfl

theorem finalize_finalize (bindings : ResolvedJammaBindings) : bindings.finalize.finalize = bindings.finalize := by
  have haliases : ∀ key, (bindings.finalize.finalize.inputs key).aliases = (bindings.finalize.inputs key).aliases := by
    intro key
    rw [finalize_aliases, flattenedAliases_finalize, finalize_aliases, List.map_map]
    exact List.map_congr_left fun entry _ => contended_contended _ entry
  have hinputs : bindings.finalize.finalize.inputs = bindings.finalize.inputs := by
    funext key
    have hpads : (bindings.finalize.finalize.inputs key).padAliases = (bindings.finalize.inputs key).padAliases := rfl
    cases hleft : bindings.finalize.finalize.inputs key with
    | mk left leftPads =>
      cases hright : bindings.finalize.inputs key with
      | mk right rightPads =>
        have hkeys := haliases key
        rw [hleft, hright] at hkeys hpads
        exact congrArg₂ JammaInputBinding.mk hkeys hpads
  calc bindings.finalize.finalize = ⟨bindings.finalize.finalize.inputs⟩ := rfl
    _ = ⟨bindings.finalize.inputs⟩ := by rw [hinputs]

theorem usesModifiers_finalize (bindings : ResolvedJammaBindings) :
    usesModifiers bindings.finalize = usesModifiers bindings := by
  unfold usesModifiers
  simp only [finalize_aliases, List.any_map, Function.comp_def, contended_required]

/-- Finalisation changes no text. -/
theorem formatJammaBinding_finalize (bindings : ResolvedJammaBindings) (key : JammaInputKey) :
    formatJammaBinding bindings.finalize key = formatJammaBinding bindings key := by
  have hpads : (bindings.finalize.inputs key).padAliases = (bindings.inputs key).padAliases := rfl
  have htext : ∀ entry : HostKeyAlias,
      formatHostKeyAlias (entry.contended (flattenedAliases bindings)) = formatHostKeyAlias entry := by
    intro entry
    rw [formatHostKeyAlias, formatHostKeyAlias, contended_keycode, contended_required]
  unfold formatJammaBinding aliasTexts
  rw [finalize_aliases, hpads, List.map_map]
  simp only [Function.comp_def, htext]

theorem and_foldl_or {masked start : Keymod} {masks : List Keymod} :
    masked &&& masks.foldl (· ||| ·) start = 0 ↔ masked &&& start = 0 ∧ ∀ mask ∈ masks, masked &&& mask = 0 := by
  induction masks generalizing start with
  | nil => simp
  | cons mask masks ih =>
    rw [List.foldl_cons, ih, BitVec.and_or_distrib_left, List.forall_mem_cons, ← and_assoc]
    exact and_congr_left fun _ => BitVec.or_eq_zero_iff

/-- A plain alias is denied every modifier that another alias of its key asks for. -/
theorem not_both_satisfied {plainKey qualifiedKey : JammaInputKey} (hqualifiedKey : qualifiedKey ≠ .count)
    {plain qualified : HostKeyAlias} (hplain : plain ∈ (bindings.finalize.inputs plainKey).aliases)
    (hqualified : qualified ∈ (bindings.finalize.inputs qualifiedKey).aliases) (hnone : plain.required = [])
    (hsome : qualified.required ≠ []) (hkeycode : plain.keycode = qualified.keycode) (state : Keymod) :
    ¬(plain.modifiersMatch state = true ∧ qualified.modifiersMatch state = true) := by
  rintro ⟨hplainMatch, hqualifiedMatch⟩
  rw [finalize_aliases] at hplain hqualified
  obtain ⟨entry, -, rfl⟩ := List.mem_map.mp hplain
  obtain ⟨other, hother, rfl⟩ := List.mem_map.mp hqualified
  rw [contended_required] at hnone hsome
  rw [contended_keycode, contended_keycode] at hkeycode
  obtain ⟨mask, hmask⟩ := List.exists_mem_of_ne_nil _ hsome
  have hflattened : other ∈ flattenedAliases bindings :=
    List.mem_flatMap.mpr ⟨qualifiedKey, mem_jammaInputKeys.mpr hqualifiedKey, hother⟩
  have hmem : mask ∈ ((flattenedAliases bindings).filter fun candidate =>
      decide (candidate.keycode = entry.keycode)).flatMap HostKeyAlias.required :=
    List.mem_flatMap.mpr ⟨other, List.mem_filter.mpr ⟨hflattened, decide_eq_true hkeycode.symm⟩, hmask⟩
  unfold HostKeyAlias.modifiersMatch at hplainMatch hqualifiedMatch
  simp only [Bool.and_eq_true, decide_eq_true_eq, List.all_eq_true] at hplainMatch hqualifiedMatch
  have hasked := hqualifiedMatch.1 mask (by rwa [contended_required])
  have hdenied := hplainMatch.2
  rw [contended_of_plain (not_not.mpr hnone)] at hdenied
  exact hasked ((and_foldl_or.mp hdenied).2 mask hmem)

end

/-- What the parser makes of any text is written as a text that it makes the same of, also behind finalisation, and
its lists keep to their capacities. Finalisation does nothing more a second time, and behind it a plain alias and a
qualified one of the same key never answer together. -/
theorem jammaBinding_round_trip :
    (∀ (text : Text) (bindings : ResolvedJammaBindings) (key : JammaInputKey), key ≠ .count →
      bindings.inputs key = (parseBindingValue text).1 →
        parseBindingValue (formatJammaBinding bindings key) = (bindings.inputs key, []) ∧
          formatJammaBinding bindings.finalize key = formatJammaBinding bindings key) ∧
    (∀ text : Text, (parseBindingValue text).1.aliases.length ≤ kMaxAliasesPerInput ∧
      (parseBindingValue text).1.padAliases.length ≤ kMaxAliasesPerInput ∧
        ∀ entry ∈ (parseBindingValue text).1.aliases, entry.required.length ≤ kMaxModifiersPerAlias) ∧
    (∀ bindings : ResolvedJammaBindings,
      finalizeJammaBindings (finalizeJammaBindings bindings).1 = finalizeJammaBindings bindings) ∧
    ∀ (bindings : ResolvedJammaBindings) (plainKey qualifiedKey : JammaInputKey), qualifiedKey ≠ .count →
      ∀ plain ∈ ((finalizeJammaBindings bindings).1.inputs plainKey).aliases,
        ∀ qualified ∈ ((finalizeJammaBindings bindings).1.inputs qualifiedKey).aliases,
          plain.required = [] → qualified.required ≠ [] → plain.keycode = qualified.keycode →
            ∀ state, ¬(plain.modifiersMatch state = true ∧ qualified.modifiersMatch state = true) := by
  refine ⟨fun text bindings key hkey hbinding => ⟨?_, formatJammaBinding_finalize bindings key⟩, fun text => ?_,
    fun bindings => ?_, fun bindings plainKey qualifiedKey hqualifiedKey plain hplain qualified hqualified hnone hsome
      hkeycode state => not_both_satisfied hqualifiedKey hplain hqualified hnone hsome hkeycode state⟩
  · rw [formatJammaBinding, if_neg hkey, hbinding, (parseBindingValue_parsed text).parse_format]
  · have h := parseBindingValue_parsed text
    exact ⟨h.keys_length, h.pads_length, fun entry hentry => (h.keys entry hentry).modifiers.length_le (Nat.zero_le _)⟩
  · rw [finalizeJammaBindings, finalizeJammaBindings, finalize_finalize, usesModifiers_finalize]

/-! ## Samples -/

/-- A value with a qualified and a plain key and two pad controls, none of them as it is written. -/
def sampleText : Text := "ctrl + f1,F_1, pad1_south , JOY01_hat2_up".toList

/-- Every input bound to it. -/
def sampleBindings : ResolvedJammaBindings := ⟨fun _ => (parseBindingValue sampleText).1⟩

/-- `F1` behind finalisation. -/
def samplePlain : HostKeyAlias := { keycode := 0x4000003A, forbidden := 0xC0 }

/-- `Ctrl+F1`. -/
def sampleQualified : HostKeyAlias := { keycode := 0x4000003A, required := [0xC0], forbidden := 0x303 }

theorem jammaBinding_round_trip_sample :
    formatJammaBinding sampleBindings .test = "Ctrl+F1, F1, Pad1_A, Joy1_Hat2Up".toList ∧
      parseBindingValue (formatJammaBinding sampleBindings .test) = (sampleBindings.inputs .test, []) ∧
      ¬(samplePlain.modifiersMatch 0x40 = true ∧ sampleQualified.modifiersMatch 0x40 = true) :=
  ⟨by decide +kernel, (jammaBinding_round_trip.1 sampleText sampleBindings .test (by decide) rfl).1,
    jammaBinding_round_trip.2.2.2 sampleBindings .clear .test (by decide) samplePlain (by decide +kernel)
      sampleQualified (by decide +kernel) rfl (by decide) rfl 0x40⟩

end Repiu.Input
