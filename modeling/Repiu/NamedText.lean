import Mathlib.Data.List.DropRight
import Mathlib.Data.List.Nodup

/-!
# Names in texts

Trimming, and tables of names that are searched under a rule for equal names and printed by value: what is
printed is found again where the names of the table differ under the rule.
-/

namespace Repiu.NamedText

section
variable {α : Type*} {blank : α → Bool} {text : List α}

/-! ## Trimming -/

/-- A text without the blanks around it. -/
def trim (blank : α → Bool) (text : List α) : List α := (text.dropWhile blank).rdropWhile blank

/-- No blanks stand around a text. -/
structure Bare (blank : α → Bool) (text : List α) : Prop where
  head : ∀ c ∈ text.head?, blank c = false
  last : ∀ c ∈ text.getLast?, blank c = false

theorem Bare.trim_eq (h : Bare blank text) : trim blank text = text := by
  cases text with
  | nil => rfl
  | cons c text =>
    have hhead : blank c = false := h.head c rfl
    rw [trim, List.dropWhile_cons_of_neg (by rw [hhead]; exact Bool.false_ne_true), List.rdropWhile_eq_self_iff]
    intro hne hblank
    rw [h.last _ (List.getLast?_eq_some_getLast hne)] at hblank
    cases hblank

theorem trim_cons_blank {c : α} (hc : blank c = true) : trim blank (c :: text) = trim blank text := by
  rw [trim, List.dropWhile_cons_of_pos hc, trim]

/-- A text without any blanks. -/
theorem Bare.of_forall (h : ∀ c ∈ text, blank c = false) : Bare blank text where
  head c hc := h c (List.mem_of_mem_head? hc)
  last c hc := h c (List.mem_of_mem_getLast? hc)

/-- A list that is written with a blank behind every separator. -/
theorem splitOn_intercalate_blank [DecidableEq α] {separator c : α} {text : List α} {texts : List (List α)}
    (h : ∀ t ∈ text :: texts, separator ∉ t) (hc : c ≠ separator) :
    ([separator, c].intercalate (text :: texts)).splitOn separator = text :: texts.map (c :: ·) := by
  have hjoin : [separator, c].intercalate (text :: texts) =
      [separator].intercalate (text :: texts.map (c :: ·)) := by
    clear h
    induction texts generalizing text with
    | nil => simp
    | cons next texts ih =>
      rw [List.map_cons, List.intercalate_cons_cons, List.intercalate_cons_cons, ih]
      cases texts with
      | nil => simp
      | cons other texts => simp [List.intercalate_cons_cons]
  rw [hjoin]
  refine List.splitOn_intercalate separator (fun t ht => ?_) (List.cons_ne_nil _ _)
  rcases List.mem_cons.mp ht with rfl | ht
  · exact h _ List.mem_cons_self
  · obtain ⟨other, hother, rfl⟩ := List.mem_map.mp ht
    rw [List.mem_cons, not_or]
    exact ⟨hc.symm, h _ (List.mem_cons_of_mem _ hother)⟩

end

/-! ## Tables of names -/

section
variable {ν β κ : Type*} [DecidableEq β]

/-- The value of the first entry with an equal name. -/
def findByName (same : ν → ν → Bool) (table : List (ν × β)) (name : ν) : Option β :=
  (table.find? fun entry => same name entry.1).map Prod.snd

/-- The name of the first entry with a value. -/
def nameOf (table : List (ν × β)) (value : β) : Option ν := (table.find? fun entry => entry.2 = value).map Prod.fst

variable {same : ν → ν → Bool} {form : ν → κ} {table : List (ν × β)} {name : ν} {value : β}

theorem mem_of_nameOf (h : nameOf table value = some name) : (name, value) ∈ table := by
  obtain ⟨entry, hfind, rfl⟩ := Option.map_eq_some_iff.mp h
  have hvalue : entry.2 = value := by simpa using List.find?_some hfind
  rw [← hvalue]
  exact List.mem_of_find?_eq_some hfind

/-- A value that is found is printed. -/
theorem nameOf_of_findByName (h : findByName same table name = some value) :
    ∃ name', nameOf table value = some name' := by
  obtain ⟨entry, hfind, rfl⟩ := Option.map_eq_some_iff.mp h
  have hsome : (table.find? fun other => other.2 = entry.2).isSome :=
    List.find?_isSome.mpr ⟨entry, List.mem_of_find?_eq_some hfind, decide_eq_true rfl⟩
  obtain ⟨first, hfirst⟩ := Option.isSome_iff_exists.mp hsome
  exact ⟨first.1, by rw [nameOf, hfirst]; rfl⟩

omit [DecidableEq β] in
/-- A name is found as the entry that it is of, where the names of the table differ. -/
theorem findByName_of_mem (hsame : ∀ a b, same a b = true ↔ form a = form b)
    (hdiffer : (table.map fun entry => form entry.1).Nodup) (hmem : (name, value) ∈ table) {name' : ν}
    (hname : form name' = form name) : findByName same table name' = some value := by
  unfold findByName
  cases hfind : table.find? fun entry => same name' entry.1 with
  | none =>
    have hnot := List.find?_eq_none.mp hfind _ hmem
    exact absurd ((hsame _ _).mpr hname) hnot
  | some entry =>
    have hfound : same name' entry.1 = true := by simpa using List.find?_some hfind
    have hform := (hsame _ _).mp hfound
    have heq : entry = (name, value) :=
      List.inj_on_of_nodup_map hdiffer (List.mem_of_find?_eq_some hfind) hmem (hform.symm.trans hname)
    rw [heq]
    rfl

/-- What is printed for a value is found as that value. -/
theorem findByName_nameOf (hsame : ∀ a b, same a b = true ↔ form a = form b)
    (hdiffer : (table.map fun entry => form entry.1).Nodup) (h : nameOf table value = some name) :
    findByName same table name = some value :=
  findByName_of_mem hsame hdiffer (mem_of_nameOf h) rfl

end

end Repiu.NamedText
