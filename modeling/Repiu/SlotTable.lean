import Mathlib.Data.List.Nodup

/-!
# Tables of reused slots

A vector of slots, of which the live ones are found by their key. A new record
takes the first slot that is not live, or a new one at the end.
-/

namespace Repiu.SlotTable

section
variable {α κ : Type} [DecidableEq κ] (live : α → Bool) (key : α → κ)

/-- The live record with a key. -/
def find (k : κ) (l : List α) : Option α := l.find? fun a => live a && decide (key a = k)

/-- Change the first live record with a key. -/
def update (k : κ) (f : α → α) : List α → List α
  | [] => []
  | a :: l => if live a && decide (key a = k) then f a :: l else a :: update k f l

/-- Put a record into the first slot that is not live, or behind all. -/
def insert (new : α) : List α → List α
  | [] => [new]
  | a :: l => if live a then a :: insert new l else new :: l

/-- The live records have distinct keys. -/
def Distinct (l : List α) : Prop := ((l.filter live).map key).Nodup

variable {live key}

theorem mem_of_find {k : κ} {l : List α} {a : α} (h : find live key k l = some a) :
    a ∈ l ∧ live a = true ∧ key a = k := by
  have hp := List.find?_some h
  rw [Bool.and_eq_true, decide_eq_true_eq] at hp
  exact ⟨List.mem_of_find?_eq_some h, hp⟩

theorem find_eq_none {k : κ} {l : List α} :
    find live key k l = none ↔ ∀ a ∈ l, live a = true → key a ≠ k := by
  simp [find, List.find?_eq_none]

/-- The live records after an insert. -/
theorem filter_insert {new : α} (hnew : live new = true) (l : List α) :
    ((insert live new l).filter live).Perm (new :: l.filter live) := by
  induction l with
  | nil => simp [insert, hnew]
  | cons a l ih =>
    by_cases ha : live a = true
    · rw [insert, if_pos ha, List.filter_cons_of_pos ha, List.filter_cons_of_pos ha]
      exact (ih.cons a).trans (List.Perm.swap new a _)
    · rw [insert, if_neg ha, List.filter_cons_of_pos hnew, List.filter_cons_of_neg ha]

theorem mem_insert {new : α} (hnew : live new = true) {l : List α} {a : α} (ha : live a = true) :
    a ∈ insert live new l ↔ a = new ∨ a ∈ l := by
  have h := (filter_insert hnew l).mem_iff (a := a)
  simpa [List.mem_filter, ha] using h

theorem Distinct.insert {l : List α} (h : Distinct live key l) {new : α} (hnew : live new = true)
    (hfree : find live key (key new) l = none) : Distinct live key (insert live new l) := by
  unfold Distinct
  rw [((filter_insert hnew l).map key).nodup_iff, List.map_cons, List.nodup_cons]
  refine ⟨fun hmem => ?_, h⟩
  obtain ⟨a, ha, hkey⟩ := List.mem_map.mp hmem
  rw [List.mem_filter] at ha
  exact find_eq_none.mp hfree a ha.1 ha.2 hkey

/-- With distinct keys, a live record is the one its key finds. -/
theorem Distinct.find {l : List α} (h : Distinct live key l) {a : α} (ha : a ∈ l) (hlive : live a = true) :
    find live key (key a) l = some a := by
  cases hfind : SlotTable.find live key (key a) l with
  | none => exact absurd rfl (find_eq_none.mp hfind a ha hlive)
  | some b =>
    obtain ⟨hb, hblive, hkey⟩ := mem_of_find hfind
    exact congrArg some (List.inj_on_of_nodup_map h (List.mem_filter.mpr ⟨hb, hblive⟩)
      (List.mem_filter.mpr ⟨ha, hlive⟩) hkey)

/-- The live records after an update of one key. -/
theorem mem_update {k : κ} {f : α → α} {l : List α} (h : Distinct live key l) {a : α}
    (ha : a ∈ update live key k f l) (hlive : live a = true) :
    (∃ b ∈ l, live b = true ∧ key b = k ∧ a = f b) ∨ (a ∈ l ∧ key a ≠ k) := by
  induction l with
  | nil => cases ha
  | cons b l ih =>
    rw [update] at ha
    split at ha
    case isTrue hb =>
      rw [Bool.and_eq_true, decide_eq_true_eq] at hb
      rcases List.mem_cons.mp ha with rfl | ha
      · exact .inl ⟨b, List.mem_cons_self .., hb.1, hb.2, rfl⟩
      · refine .inr ⟨List.mem_cons_of_mem _ ha, ?_⟩
        rw [Distinct, List.filter_cons_of_pos hb.1, List.map_cons, List.nodup_cons, hb.2] at h
        rintro rfl
        exact h.1 (List.mem_map_of_mem (List.mem_filter.mpr ⟨ha, hlive⟩))
    case isFalse hb =>
      rcases List.mem_cons.mp ha with rfl | ha
      · refine .inr ⟨List.mem_cons_self .., fun hk => hb ?_⟩
        rw [Bool.and_eq_true, decide_eq_true_eq]
        exact ⟨hlive, hk⟩
      · have htail : Distinct live key l := by
          unfold Distinct at h ⊢
          exact h.sublist (((List.sublist_cons_self b l).filter live).map key)
        rcases ih htail ha with ⟨c, hc, hcs⟩ | ⟨hmem, hne⟩
        · exact .inl ⟨c, List.mem_cons_of_mem _ hc, hcs⟩
        · exact .inr ⟨List.mem_cons_of_mem _ hmem, hne⟩

/-- An update that keeps keys adds none to the live ones. -/
theorem map_key_update {k : κ} {f : α → α} (hkey : ∀ a, key (f a) = key a)
    (l : List α) :
    (((update live key k f l).filter live).map key).Sublist ((l.filter live).map key) := by
  induction l with
  | nil => exact List.Sublist.refl _
  | cons b l ih =>
    rw [update]
    split
    case isTrue hb =>
      rw [Bool.and_eq_true] at hb
      rw [List.filter_cons_of_pos hb.1, List.map_cons]
      by_cases hf : live (f b) = true
      · rw [List.filter_cons_of_pos hf, List.map_cons, hkey]
      · rw [List.filter_cons_of_neg hf]
        exact List.sublist_cons_self ..
    case isFalse hb =>
      by_cases hlive : live b = true
      · rw [List.filter_cons_of_pos hlive, List.filter_cons_of_pos hlive, List.map_cons, List.map_cons]
        exact ih.cons_cons _
      · rw [List.filter_cons_of_neg hlive, List.filter_cons_of_neg hlive]
        exact ih

/-- An update that a view does not see. -/
theorem map_update {β : Type} {g : α → β} {k : κ} {f : α → α} (h : ∀ a, g (f a) = g a) (l : List α) :
    (update live key k f l).map g = l.map g := by
  induction l with
  | nil => rfl
  | cons a l ih =>
    rw [update]
    split
    · rw [List.map_cons, List.map_cons, h]
    · rw [List.map_cons, List.map_cons, ih]

theorem Distinct.update {l : List α} (h : Distinct live key l) {k : κ} {f : α → α}
    (hkey : ∀ a, key (f a) = key a) : Distinct live key (update live key k f l) := by
  unfold Distinct at h ⊢
  exact h.sublist (map_key_update hkey l)

end

end Repiu.SlotTable
